import Mathlib.Data.Nat.Bitwise
import Provision.Binding.Lines
import Provision.Pattern.Parser

namespace Provision

namespace Pattern

def escapeChars (cs : List Char) : List Char := cs.flatMap fun c => if isMeta c then ['\\', c] else [c]

/-- A pattern for the texts that start with the characters. -/
def anchored (cs : List Char) : Pattern :=
  sequence ((cs.map fun c => some (.chars (.single c))).reverse ++ [some (.look .textStart)])

theorem readEscape_meta {c : Char} (special : isMeta c = true) (f : Flags) (rest : List Char) :
    readEscape f (c :: rest) = .ok (.char c, rest) := by
  simp [isMeta] at special
  rcases special with rfl | rfl | rfl | rfl | rfl | rfl | rfl | rfl | rfl | rfl | rfl | rfl | rfl | rfl | rfl | rfl |
    rfl | rfl
  all_goals rfl

section

variable {c : Char} {fuel : Nat} {names : List String} {items : List (Option Pattern)} {branches : List Pattern}
  {rest : List Char}

theorem readBody_meta (special : isMeta c = true) :
    readBody false (fuel + 1) .initial names items branches ('\\' :: c :: rest) =
      readBody false fuel .initial names (some (.chars (.single c)) :: items) branches rest := by
  rw [readBody]
  simp [Flags.skip, Flags.initial, readEscape_meta special, Item.toPattern, Flags.literal]

theorem readBody_plain (plain : isMeta c = false) :
    readBody false (fuel + 1) .initial names items branches (c :: rest) =
      readBody false fuel .initial names (some (.chars (.single c)) :: items) branches rest := by
  have whole : Flags.initial.skip (c :: rest) = c :: rest := rfl
  rw [readBody, whole]
  split
  all_goals
    rename_i read
    cases read
  -- Each character that is read as an operator is special.
  all_goals first | exact absurd plain (by decide) | rfl

end

theorem readBody_escaped (cs : List Char) {fuel : Nat} {names : List String} {items : List (Option Pattern)}
    (enough : (escapeChars cs).length < fuel) :
    readBody false fuel .initial names items [] (escapeChars cs) =
      .ok ((sequence ((cs.map fun c => some (.chars (.single c))).reverse ++ items), names), []) := by
  induction cs generalizing fuel items with
  | nil =>
    obtain ⟨fuel, rfl⟩ : ∃ n, fuel = n + 1 := ⟨fuel - 1, by omega⟩
    rfl
  | cons c rest ih =>
    obtain ⟨fuel, rfl⟩ : ∃ n, fuel = n + 1 := ⟨fuel - 1, by omega⟩
    have reversed : ((c :: rest).map fun c => some (chars (.single c))).reverse ++ items =
        (rest.map fun c => some (chars (.single c))).reverse ++ some (.chars (.single c)) :: items := by
      simp
    rw [reversed]
    cases special : isMeta c with
    | true =>
      have text : escapeChars (c :: rest) = '\\' :: c :: escapeChars rest := by simp [escapeChars, special]
      rw [text] at enough ⊢
      rw [readBody_meta special]
      exact ih (by simp only [List.length_cons] at enough; omega)
    | false =>
      have text : escapeChars (c :: rest) = c :: escapeChars rest := by simp [escapeChars, special]
      rw [text] at enough ⊢
      rw [readBody_plain special]
      exact ih (by simp only [List.length_cons] at enough; omega)

theorem parse_anchored {cs : List Char} {result : Except Malformed Pattern}
    (read : parse (String.ofList ('^' :: escapeChars cs)) = result) :
    result = .error .nestedTooDeep ∨ result = .error .tooLarge ∨ result = .ok (anchored cs) := by
  have start : readBody false (('^' :: escapeChars cs).length + 1) .initial [] [] [] ('^' :: escapeChars cs) =
      readBody false ('^' :: escapeChars cs).length .initial [] [some (.look .textStart)] [] (escapeChars cs) := rfl
  have body := start.trans (readBody_escaped cs (Nat.lt_succ_self _))
  rw [parse, String.toList_ofList] at read
  simp only [body] at read
  subst read
  split
  · exact Or.inl rfl
  · split
    · exact Or.inr (Or.inl rfl)
    · exact Or.inr (Or.inr rfl)

theorem testBit_ofBits (bits : List Bool) (i : Nat) : (ofBits bits).testBit i = bits[i]?.getD false := by
  induction bits generalizing i with
  | nil => simp [ofBits]
  | cons b rest ih =>
    rw [ofBits]
    cases i with
    | zero => cases b <;> simp [Nat.testBit_zero]
    | succ i =>
      have half : ((if b then 1 else 0) + 2 * ofBits rest) / 2 = ofBits rest := by split <;> omega
      rw [Nat.testBit_succ, half, ih]
      rfl

theorem ends_sequence (text : List Char) (items : List (Option Pattern)) (s : Nat) :
    ends text (sequence items) s = (items.filterMap id).foldr (ends text) s := by
  have folded (rest : List Pattern) (p : Pattern) :
      ends text (rest.foldl (fun acc q => .seq q acc) p) s = ends text p (rest.foldr (ends text) s) := by
    induction rest generalizing p with
    | nil => rfl
    | cons q rest ih => exact ih (.seq q p)
  unfold sequence
  cases items.filterMap id with
  | nil => rfl
  | cons p rest => exact folded rest p

theorem single_contains (c d : Char) : (CharSet.single c).contains d = decide (d = c) := by
  rw [CharSet.single, CharSet.contains, ← Bool.decide_and, decide_eq_decide]
  exact ⟨fun both => Char.le_antisymm both.2 both.1, fun same => same ▸ ⟨Char.le_refl _, Char.le_refl _⟩⟩

theorem ends_single (text : List Char) (c : Char) (n : Nat) :
    ends text (.chars (.single c)) (2 ^ n) = if text[n]? = some c then 2 ^ (n + 1) else 0 := by
  have found : (charBits (.single c) text).testBit n = decide (text[n]? = some c) := by
    rw [charBits, testBit_ofBits, List.getElem?_map]
    cases text[n]? with
    | none => rfl
    | some d => simp [single_contains]
  rw [ends, Nat.two_pow_and, found]
  split
  · rename_i here
    simp [here, Nat.shiftLeft_eq, Nat.pow_succ]
  · rename_i other
    simp [other]

theorem ends_lost (text cs : List Char) : cs.foldl (fun s c => ends text (.chars (.single c)) s) 0 = 0 := by
  induction cs with
  | nil => rfl
  | cons c cs ih =>
    rw [List.foldl_cons, ends, Nat.zero_and, Nat.zero_shiftLeft]
    exact ih

theorem ends_follow (cs front rest : List Char) :
    cs.foldl (fun s c => ends (front ++ rest) (.chars (.single c)) s) (2 ^ front.length) ≠ 0 ↔ cs <+: rest := by
  induction cs generalizing front rest with
  | nil => simp
  | cons c cs ih =>
    rw [List.foldl_cons, ends_single]
    cases rest with
    | nil => simpa using ends_lost _ cs
    | cons d rest =>
      have here : (front ++ d :: rest)[front.length]? = some d := by simp
      rw [here, List.cons_prefix_cons]
      by_cases same : d = c
      · subst same
        simpa using ih (front ++ [d]) rest
      · have other : ¬ some d = some c := fun both => same (Option.some.inj both)
        rw [if_neg other]
        exact iff_of_false (fun left => left (ends_lost _ cs)) fun both => same both.1.symm

theorem ends_textStart (text : List Char) (n : Nat) : ends text (.look .textStart) (1 <<< (n + 1) - 1) = 2 ^ 0 := by
  have later (before : Char) (rest : List Char) : ofBits (lookBits .textStart (some before) rest) = 0 := by
    induction rest generalizing before with
    | nil => rfl
    | cons c rest ih => simpa [lookBits, ofBits, Look.holds] using ih c
  have bits : ofBits (lookBits .textStart none text) = 1 := by
    cases text with
    | nil => rfl
    | cons c rest => simp [lookBits, ofBits, Look.holds, later]
  rw [ends, bits, Nat.and_one_is_mod, Nat.one_shiftLeft, Nat.pow_succ]
  have positive : 0 < 2 ^ n := Nat.two_pow_pos n
  omega

theorem anchored_isMatch (cs : List Char) (text : String) : (anchored cs).isMatch text = true ↔ cs <+: text.toList := by
  have items : ((cs.map fun c => some (chars (.single c))).reverse ++ [some (look .textStart)]).filterMap id =
      (cs.map fun c => chars (.single c)).reverse ++ [look .textStart] := by
    simp [← List.map_reverse, List.filterMap_map]
  rw [isMatch, anchored, ends_sequence, items, List.foldr_append, List.foldr_reverse, List.foldl_map, bne_iff_ne]
  simp only [List.foldr_cons, List.foldr_nil, ends_textStart]
  exact ends_follow cs [] text.toList

end Pattern

namespace LineSyntax

def keyPattern (syn : LineSyntax) (key : String) : String :=
  String.ofList ('^' :: Pattern.escapeChars (syn.lead key))

theorem sets_iff {syn : LineSyntax} {key line : String} : syn.sets key line = true ↔ syn.lead key <+: line.toList := by
  rw [sets, Option.isSome_iff_exists]
  exact ⟨fun ⟨rest, found⟩ => ⟨rest, (Text.dropLead?_eq_some_iff.mp found).symm⟩,
    fun ⟨rest, whole⟩ => ⟨rest, Text.dropLead?_eq_some_iff.mpr whole.symm⟩⟩

/-- Whatever characters a key holds, its pattern matches the lines that set it. -/
theorem keyPattern_isMatch {syn : LineSyntax} {key : String} {p : Pattern}
    (read : Pattern.parse (syn.keyPattern key) = .ok p) (line : String) : p.isMatch line = syn.sets key line := by
  rcases Pattern.parse_anchored read with refused | refused | same
  · cases refused
  · cases refused
  · cases same
    rw [Bool.eq_iff_iff, Pattern.anchored_isMatch, sets_iff]

example : Pattern.parse (LineSyntax.plain.keyPattern "a.b") = .ok (.anchored "a.b=".toList) := by rfl

end LineSyntax

end Provision
