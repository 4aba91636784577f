import Provision.Inventory.Filter
import Provision.Proofs.JsonText

namespace Provision

namespace Source

def IsNumeral (c : Char) : Prop := isDigit c = true ∨ c = '.' ∨ c = 'e' ∨ c = 'E' ∨ c = '+' ∨ c = '-'

theorem readDigits_parts {cs ds r : List Char} (read : readDigits cs = some (ds, r)) :
    cs = ds ++ r ∧ ∀ c ∈ ds, IsNumeral c := by
  unfold readDigits at read
  dsimp only at read
  split at read
  · cases read
  · cases read
    exact ⟨List.takeWhile_append_dropWhile.symm, fun c member => Or.inl (List.mem_takeWhile_imp member)⟩

theorem readWhole_parts {cs ds r : List Char} (read : readWhole cs = some (ds, r)) :
    cs = ds ++ r ∧ ∀ c ∈ ds, IsNumeral c := by
  unfold readWhole at read
  split at read
  · cases read
    exact ⟨rfl, fun c member => Or.inl (by rw [List.mem_singleton.mp member]; decide)⟩
  · exact readDigits_parts read

theorem readFraction_parts {cs ds r : List Char} (read : readFraction cs = some (ds, r)) :
    cs = ds ++ r ∧ ∀ c ∈ ds, IsNumeral c := by
  unfold readFraction at read
  split at read
  · obtain ⟨⟨digits, left⟩, inner, same⟩ := Option.map_eq_some_iff.mp read
    cases same
    obtain ⟨rfl, each⟩ := readDigits_parts inner
    exact ⟨rfl, List.forall_mem_cons.mpr ⟨by simp [IsNumeral], each⟩⟩
  · cases read
    exact ⟨rfl, by simp⟩

theorem readExponent_parts {cs ds r : List Char} (read : readExponent cs = some (ds, r)) :
    cs = ds ++ r ∧ ∀ c ∈ ds, IsNumeral c := by
  unfold readExponent at read
  split at read
  · rename_i c rest
    split at read
    · rename_i mark
      have marked : IsNumeral c := by
        rcases (by simpa using mark : c = 'e' ∨ c = 'E') with rfl | rfl <;> simp [IsNumeral]
      split at read
      · rename_i s more
        split at read
        · rename_i sign
          have signed : IsNumeral s := by
            rcases (by simpa using sign : s = '+' ∨ s = '-') with rfl | rfl <;> simp [IsNumeral]
          obtain ⟨⟨digits, left⟩, inner, same⟩ := Option.map_eq_some_iff.mp read
          cases same
          obtain ⟨rfl, each⟩ := readDigits_parts inner
          exact ⟨rfl, List.forall_mem_cons.mpr ⟨marked, List.forall_mem_cons.mpr ⟨signed, each⟩⟩⟩
        · obtain ⟨⟨digits, left⟩, inner, same⟩ := Option.map_eq_some_iff.mp read
          cases same
          obtain ⟨whole, each⟩ := readDigits_parts inner
          rw [whole]
          exact ⟨rfl, List.forall_mem_cons.mpr ⟨marked, each⟩⟩
      · cases read
    · cases read
      exact ⟨rfl, by simp⟩
  · cases read
    exact ⟨rfl, by simp⟩

theorem readUnsigned_parts {cs ds r : List Char} (read : readUnsigned cs = some (ds, r)) :
    cs = ds ++ r ∧ ∀ c ∈ ds, IsNumeral c := by
  obtain ⟨⟨whole, cs₁⟩, first, read⟩ := Option.bind_eq_some_iff.mp read
  obtain ⟨⟨fraction, cs₂⟩, second, read⟩ := Option.bind_eq_some_iff.mp read
  obtain ⟨⟨exponent, cs₃⟩, third, read⟩ := Option.bind_eq_some_iff.mp read
  cases read
  obtain ⟨rfl, one⟩ := readWhole_parts first
  obtain ⟨rfl, two⟩ := readFraction_parts second
  obtain ⟨rfl, three⟩ := readExponent_parts third
  refine ⟨by simp, ?_⟩
  simp only [List.forall_mem_append]
  exact ⟨⟨one, two⟩, three⟩

theorem readNumber_parts {cs ds r : List Char} (read : readNumber cs = some (ds, r)) :
    cs = ds ++ r ∧ ∀ c ∈ ds, IsNumeral c := by
  unfold readNumber at read
  split at read
  · obtain ⟨⟨digits, left⟩, inner, same⟩ := Option.map_eq_some_iff.mp read
    cases same
    obtain ⟨rfl, each⟩ := readUnsigned_parts inner
    exact ⟨rfl, List.forall_mem_cons.mpr ⟨by simp [IsNumeral], each⟩⟩
  · exact readUnsigned_parts read

theorem readPieces_parts {cs r : List Char} {ps : List Piece} (read : readPieces cs = some (ps, r)) :
    ∃ body, cs = body ++ '"' :: r ∧ ps.length ≤ body.length := by
  fun_induction readPieces cs generalizing ps with
  | case1 => cases read
  | case2 rest =>
    cases read
    exact ⟨[], rfl, le_rfl⟩
  | case3 a b c d rest ih =>
    simp only [Option.bind_eq_bind, Option.bind_eq_some_iff] at read
    obtain ⟨_, -, _, -, _, -, _, -, ⟨qs, left⟩, inner, same⟩ := read
    cases same
    obtain ⟨body, rfl, short⟩ := ih inner
    exact ⟨'\\' :: 'u' :: a :: b :: c :: d :: body, rfl, by simp; omega⟩
  | case4 e rest other ih =>
    simp only [Option.bind_eq_bind, Option.bind_eq_some_iff] at read
    obtain ⟨_, -, ⟨qs, left⟩, inner, same⟩ := read
    cases same
    obtain ⟨body, rfl, short⟩ := ih inner
    exact ⟨'\\' :: e :: body, rfl, by simp; omega⟩
  | case5 c rest _ _ _ control => cases read
  | case6 c rest _ _ _ plain ih =>
    obtain ⟨⟨qs, left⟩, inner, same⟩ := Option.map_eq_some_iff.mp read
    cases same
    obtain ⟨body, rfl, short⟩ := ih inner
    exact ⟨c :: body, rfl, by simp; omega⟩

theorem joinPieces_length {ps : List Piece} {cs : List Char} (joined : joinPieces ps = some cs) :
    cs.length ≤ ps.length := by
  fun_induction joinPieces ps generalizing cs with
  | case1 =>
    cases joined
    exact le_rfl
  | case2 c rest ih | case8 n rest _ _ ih =>
    obtain ⟨text, inner, rfl⟩ := Option.map_eq_some_iff.mp joined
    have shorter := ih inner
    simp only [List.length_cons]
    omega
  | case3 n m rest _ _ ih | case6 n m rest _ _ ih =>
    obtain ⟨text, inner, rfl⟩ := Option.map_eq_some_iff.mp joined
    have shorter := ih inner
    simp only [List.length_cons] at shorter ⊢
    omega
  | case4 | case5 | case7 => cases joined

/-- What the text of a scalar looks like: a word or a number, or a string between its quotes. -/
inductive ScalarText : Source → List Char → Prop
  | bare {src : Source} {text : List Char} : 'D' ∉ text → (∀ s, src ≠ .string s) → ScalarText src text
  | quoted {s : Option String} {body : List Char} : (∀ t, s = some t → t.toList.length ≤ body.length) →
      ScalarText (.string s) ('"' :: (body ++ ['"']))

theorem not_isNumeral : ¬ IsNumeral 'D' := by
  unfold IsNumeral
  decide

theorem readValue_scalarText {fuel : Nat} {cs r : List Char} {src : Source} (read : readValue fuel cs = some (src, r)) :
    (∃ items, src = .array items) ∨ (∃ fields, src = .object fields) ∨
      ∃ text, skip cs = text ++ r ∧ ScalarText src text := by
  cases fuel with
  | zero => cases read
  | succ fuel =>
    unfold readValue at read
    -- One case for each sign that a value starts with.
    split at read
    · rename_i same
      cases read
      exact Or.inr (Or.inr ⟨['n', 'u', 'l', 'l'], same, .bare (by decide) (by simp)⟩)
    · rename_i same
      cases read
      exact Or.inr (Or.inr ⟨['t', 'r', 'u', 'e'], same, .bare (by decide) (by simp)⟩)
    · rename_i same
      cases read
      exact Or.inr (Or.inr ⟨['f', 'a', 'l', 's', 'e'], same, .bare (by decide) (by simp)⟩)
    · rename_i same
      obtain ⟨⟨s, left⟩, inner, last⟩ := Option.map_eq_some_iff.mp read
      cases last
      obtain ⟨⟨ps, left⟩, pieces, joined⟩ := Option.map_eq_some_iff.mp inner
      cases joined
      obtain ⟨body, rfl, short⟩ := readPieces_parts pieces
      refine Or.inr (Or.inr ⟨'"' :: (body ++ ['"']), by simp [same], .quoted fun t here => ?_⟩)
      obtain ⟨text, joins, rfl⟩ := Option.map_eq_some_iff.mp here
      rw [String.toList_ofList]
      exact (joinPieces_length joins).trans short
    · split at read
      · cases read
        exact Or.inl ⟨_, rfl⟩
      · obtain ⟨⟨items, left⟩, -, last⟩ := Option.map_eq_some_iff.mp read
        cases last
        exact Or.inl ⟨_, rfl⟩
    · split at read
      · cases read
        exact Or.inr (Or.inl ⟨_, rfl⟩)
      · obtain ⟨⟨fields, left⟩, -, last⟩ := Option.map_eq_some_iff.mp read
        cases last
        exact Or.inr (Or.inl ⟨_, rfl⟩)
    · obtain ⟨⟨text, left⟩, inner, last⟩ := Option.map_eq_some_iff.mp read
      cases last
      obtain ⟨whole, each⟩ := readNumber_parts inner
      exact Or.inr (Or.inr ⟨text, whole, .bare (fun member => not_isNumeral (each _ member)) (by simp)⟩)

theorem parse?_scalarText {s : String} {v : Json} (parsed : Json.parse? s = some v) (scalar : v.isScalar = true) :
    ∃ src gap text rest, s.toList = gap ++ text ++ rest ∧ IsGap gap ∧ IsGap rest ∧ ScalarText src text ∧
      src.toJson? maxDepth = some v := by
  obtain ⟨src, read, given⟩ := Option.bind_eq_some_iff.mp parsed
  unfold read? at read
  dsimp only at read
  split at read
  · rename_i found r whole
    split at read
    · rename_i blank
      cases read
      have rest : IsGap r := List.dropWhile_eq_nil_iff.mp (List.isEmpty_iff.mp blank)
      rcases readValue_scalarText whole with ⟨items, rfl⟩ | ⟨fields, rfl⟩ | ⟨text, behind, plain⟩
      · obtain ⟨values, -, rfl⟩ := Option.map_eq_some_iff.mp given
        cases scalar
      · obtain ⟨values, -, rfl⟩ := Option.map_eq_some_iff.mp given
        cases scalar
      · refine ⟨src, s.toList.takeWhile isSpace, text, r, ?_, fun c => List.mem_takeWhile_imp, rest, plain, given⟩
        rw [List.append_assoc, ← behind]
        exact List.takeWhile_append_dropWhile.symm
    · cases read
  · cases read

end Source

namespace Filter

theorem termValue_cases (s : String) : termValue s = .string s ∨ ∃ v, Json.parse? s = some v ∧ v.isScalar = true ∧
    termValue s = v := by
  unfold termValue
  cases parsed : Json.parse? s with
  | none => exact Or.inl rfl
  | some v =>
    cases scalar : v.isScalar with
    | false => exact Or.inl (if_neg (by simp [scalar]))
    | true => exact Or.inr ⟨v, rfl, scalar, if_pos scalar⟩

theorem termValue_length {s t : String} (asks : termValue s = .string t) : t.toList.length ≤ s.toList.length := by
  rcases termValue_cases s with same | ⟨v, parsed, scalar, same⟩
  · rw [← Json.string.inj (same.symm.trans asks)]
  · rw [same] at asks
    subst asks
    obtain ⟨src, gap, text, rest, whole, -, -, plain, given⟩ := Source.parse?_scalarText parsed scalar
    cases plain with
    | bare _ other =>
      cases src with
      | string s => exact absurd rfl (other s)
      | null | bool => cases given
      | number | array | object =>
        obtain ⟨_, -, same⟩ := Option.map_eq_some_iff.mp given
        cases same
    | quoted short =>
      obtain ⟨inner, here, same⟩ := Option.map_eq_some_iff.mp given
      cases same
      have bound := short t here
      rw [whole]
      simp
      omega

/-- A text that ends in ` AND` is no scalar. -/
theorem termValue_ends {s : String} {front : List Char} (ends : s.toList = front ++ ['D']) :
    termValue s = .string s := by
  rcases termValue_cases s with same | ⟨v, parsed, scalar, -⟩
  · exact same
  · obtain ⟨src, gap, text, rest, whole, before, after, plain, -⟩ := Source.parse?_scalarText parsed scalar
    have notSpace : Source.isSpace 'D' = false := by decide
    have last : 'D' ∈ s.toList := by simp [ends]
    cases plain with
    | bare without _ =>
      rw [whole, List.mem_append, List.mem_append] at last
      rcases last with (inside | inside) | inside
      · rw [before _ inside] at notSpace
        cases notSpace
      · exact absurd inside without
      · rw [after _ inside] at notSpace
        cases notSpace
    | @quoted s body short =>
      rw [ends] at whole
      rcases rest.eq_nil_or_concat with rfl | ⟨most, c, rfl⟩
      · have closed : gap ++ '"' :: (body ++ ['"']) ++ [] = (gap ++ '"' :: body) ++ ['"'] := by simp
        rw [closed] at whole
        exact absurd (List.append_inj' whole rfl).2 (by decide)
      · rw [List.concat_eq_append, ← List.append_assoc] at whole
        obtain rfl : 'D' = c := (List.cons.inj (List.append_inj' whole rfl).2).1
        rw [after 'D' (by simp)] at notSpace
        cases notSpace

theorem termValue_ne {raw more : List Char} (ends : ∃ front, more = front ++ ['D']) :
    termValue (String.ofList (raw ++ more)) ≠ termValue (String.ofList raw) := by
  obtain ⟨front, rfl⟩ := ends
  have whole : (String.ofList (raw ++ (front ++ ['D']))).toList = (raw ++ front) ++ ['D'] := by
    rw [String.toList_ofList, List.append_assoc]
  intro same
  rw [termValue_ends whole] at same
  have shorter := termValue_length same.symm
  rw [String.toList_ofList, String.toList_ofList] at shorter
  simp only [List.length_append, List.length_singleton] at shorter
  omega

open Text (isBlank trimChars trimStartChars trimEndChars splitFirstChars)

theorem colon_unique {u v u' v' : List Char} (first : ':' ∉ u) (other : ':' ∉ u')
    (same : u ++ ':' :: v = u' ++ ':' :: v') : u = u' ∧ v = v' := by
  have cut := Text.splitFirstChars_one first v
  rw [same, Text.splitFirstChars_one other v'] at cut
  cases cut
  exact ⟨rfl, rfl⟩

theorem trimStart_solid {c : Char} (solid : isBlank c = false) (u v : List Char) :
    trimStartChars (u ++ c :: v) = trimStartChars u ++ c :: v := by
  induction u with
  | nil => exact List.dropWhile_cons_of_neg (by simp [solid])
  | cons d u ih =>
    unfold trimStartChars at ih ⊢
    rw [List.cons_append, List.dropWhile_cons, List.dropWhile_cons, ih]
    split <;> rfl

theorem trimEnd_solid {c : Char} (solid : isBlank c = false) (u v : List Char) :
    trimEndChars (u ++ c :: v) = u ++ c :: trimEndChars v := by
  have turned : (u ++ c :: v).reverse = v.reverse ++ c :: u.reverse := by simp
  have front := trimStart_solid solid v.reverse u.reverse
  unfold trimStartChars at front
  unfold trimEndChars
  rw [turned, front]
  simp

theorem colon_toList : ":".toList = [':'] := by decide +kernel

theorem parseTerm_colon {u : List Char} (none : ':' ∉ u) (v : List Char) :
    parseTerm (String.ofList (u ++ ':' :: v)) =
      .ok ⟨Text.trim (String.ofList u), termValue (String.ofList (trimEndChars v))⟩ := by
  have solid : isBlank ':' = false := by decide
  have shorter : ':' ∉ trimStartChars u := fun member => none ((List.dropWhile_suffix isBlank).subset member)
  have again : trimStartChars (trimStartChars u) = trimStartChars u := List.dropWhile_idempotent _ u
  have halves : Text.splitFirst? ":" (Text.trim (String.ofList (u ++ ':' :: v))) =
      some (String.ofList (trimStartChars u), String.ofList (trimEndChars v)) := by
    rw [Text.splitFirst?, colon_toList, Text.trim, String.toList_ofList, String.toList_ofList, trimChars,
      trimStart_solid solid, trimEnd_solid solid, Text.splitFirstChars_one shorter]
    rfl
  unfold parseTerm
  rw [halves]
  dsimp only
  rw [Text.trim, Text.trim, String.toList_ofList, String.toList_ofList, trimChars, again]
  rfl

theorem parseTerm_keyless {p : List Char} (none : ':' ∉ p) : ∃ e, parseTerm (String.ofList p) = .error e := by
  have part : trimChars p <:+: p :=
    (List.rdropWhile_prefix isBlank _).isInfix.trans (List.dropWhile_suffix isBlank).isInfix
  have shorter : ':' ∉ trimChars p := fun member => none (part.subset member)
  have uncut : Text.splitFirst? ":" (Text.trim (String.ofList p)) = .none := by
    rw [Text.splitFirst?, colon_toList, Text.trim, String.toList_ofList, String.toList_ofList,
      Text.splitFirstChars_one_eq_none shorter]
    rfl
  unfold parseTerm
  rw [uncut]
  exact ⟨_, rfl⟩

end Filter

end Provision
