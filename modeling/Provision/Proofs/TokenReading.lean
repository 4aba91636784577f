import Mathlib.Data.List.Infix
import Provision.Proofs.ConsumedTokens

namespace Provision.Template

open Text (isBlank)

variable {c : Char}

def isStop (c : Char) : Prop := isBlank c = true ∨ c = '\x7d'

/-- The text starts with no character that continues a token. -/
def Stops (cs : List Char) : Prop := ∀ c ∈ cs.head?, isStop c

theorem isBlank_code (blank : isBlank c = true) : c.toNat ≤ 0x20 ∨ 0x7f < c.toNat := by
  simp only [isBlank, Bool.or_eq_true, Bool.and_eq_true, decide_eq_true_eq, beq_iff_eq] at blank
  omega

theorem isStop.code (stop : isStop c) : c.toNat ≤ 0x20 ∨ 0x7d ≤ c.toNat := by
  rcases stop with blank | rfl
  · have := isBlank_code blank
    omega
  · exact .inr (by decide)

theorem isDigit_code (digit : c.isDigit = true) : 0x30 ≤ c.toNat ∧ c.toNat ≤ 0x39 := by
  simpa [Char.isDigit, UInt32.le_iff_toNat_le] using digit

theorem isAlpha_code (alpha : c.isAlpha = true) : 0x41 ≤ c.toNat ∧ c.toNat ≤ 0x7a := by
  unfold Char.isAlpha Char.isUpper Char.isLower at alpha
  simp only [Bool.or_eq_true, Bool.and_eq_true, decide_eq_true_eq, UInt32.le_iff_toNat_le, ge_iff_le] at alpha
  change (0x41 ≤ c.toNat ∧ c.toNat ≤ 0x5a) ∨ (0x61 ≤ c.toNat ∧ c.toNat ≤ 0x7a) at alpha
  omega

theorem isNameChar_code (name : isNameChar c = true) : 0x30 ≤ c.toNat ∧ c.toNat ≤ 0x7a := by
  simp only [isNameChar, Char.isAlphanum, Bool.or_eq_true, decide_eq_true_eq] at name
  rcases name with (alpha | digit) | rfl
  · have := isAlpha_code alpha
    omega
  · have := isDigit_code digit
    omega
  · decide

theorem hexValue?_code {n : Nat} (hex : Source.hexValue? c = some n) : 0x30 ≤ c.toNat ∧ c.toNat ≤ 0x66 := by
  unfold Source.hexValue? at hex
  simp only [Bool.and_eq_true, decide_eq_true_eq, Char.le_def, UInt32.le_iff_toNat_le] at hex
  change (if 0x30 ≤ c.toNat ∧ c.toNat ≤ 0x39 then _ else if 0x61 ≤ c.toNat ∧ c.toNat ≤ 0x66 then _
    else if 0x41 ≤ c.toNat ∧ c.toNat ≤ 0x46 then _ else _) = _ at hex
  split at hex
  · omega
  · split at hex
    · omega
    · split at hex
      · omega
      · cases hex

theorem NumberPart.next?_code {p q : NumberPart} (next : p.next? c = some q) : 0x20 < c.toNat ∧ c.toNat < 0x7d := by
  unfold NumberPart.next? at next
  split at next
  · rename_i same
    rw [same]
    decide
  · split at next
    · rename_i digit
      have := isDigit_code digit
      omega
    · cases p with
      | radix base =>
        simp only [Bool.and_eq_true, decide_eq_true_eq, Option.ite_none_right_eq_some] at next
        obtain ⟨n, hex⟩ := Option.isSome_iff_exists.mp next.1.2
        have := hexValue?_code hex
        omega
      | whole =>
        simp only [Bool.or_eq_true, decide_eq_true_eq] at next
        split at next
        · rename_i same
          rw [same]
          decide
        · simp only [Option.ite_none_right_eq_some] at next
          rcases next.1 with rfl | rfl <;> decide
      | fraction | exponent =>
        simp only [Bool.or_eq_true, decide_eq_true_eq, Option.ite_none_right_eq_some] at next
        rcases next.1 with rfl | rfl <;> decide
      | exponentDigits => cases next

theorem isStop.not_isNameChar (stop : isStop c) : isNameChar c = false := by
  have code := stop.code
  by_contra name
  have := isNameChar_code (Bool.not_eq_false _ ▸ name)
  omega

theorem isStop.next?_eq_none (stop : isStop c) (p : NumberPart) : p.next? c = none := by
  have code := stop.code
  cases next : p.next? c with
  | none => rfl
  | some q =>
    have := NumberPart.next?_code next
    omega

variable {cs rest tail : List Char}

theorem readQuoted_plain {quote : Char} (plain : c ≠ '\\') (rest : List Char) :
    readQuoted quote (c :: rest) =
      if c = quote then some ([], rest) else (readQuoted quote rest).map fun (ps, r) => (.char c :: ps, r) := by
  rw [readQuoted]
  · rintro _ _ _ _ _ rfl
    exact absurd rfl plain
  · rintro _ _ rfl
    exact absurd rfl plain

theorem readQuoted_escaped {quote e escaped : Char} {ps : List Source.Piece} (other : e ≠ 'u')
    (known : (if e = '\'' then some '\'' else Source.simpleEscape? e) = some escaped)
    (inner : readQuoted quote cs = some (ps, rest)) :
    readQuoted quote ('\\' :: e :: cs) = some (.char escaped :: ps, rest) := by
  rw [readQuoted]
  · split at known
    · rename_i same
      cases known
      simp [same, inner]
    · rename_i letter
      simp [letter, known, inner]
  · intro _ _ _ _ _ same
    exact absurd same other

theorem readQuoted_append {quote : Char} (mark : quote ≠ '\\') {ps : List Source.Piece}
    (read : readQuoted quote cs = some (ps, rest)) (tail : List Char) :
    readQuoted quote (cs ++ tail) = some (ps, rest ++ tail) ∧ rest <:+ cs := by
  fun_induction readQuoted quote cs generalizing ps rest with
  | case1 => cases read
  | case2 a b c d later ih =>
    obtain ⟨a', first, read⟩ := Option.bind_eq_some_iff.mp read
    obtain ⟨b', second, read⟩ := Option.bind_eq_some_iff.mp read
    obtain ⟨c', third, read⟩ := Option.bind_eq_some_iff.mp read
    obtain ⟨d', fourth, read⟩ := Option.bind_eq_some_iff.mp read
    obtain ⟨⟨more, r⟩, inner, read⟩ := Option.bind_eq_some_iff.mp read
    cases read
    obtain ⟨same, part⟩ := ih inner
    refine ⟨?_, part.trans ⟨['\\', 'u', a, b, c, d], rfl⟩⟩
    simp only [List.cons_append, readQuoted, first, second, third, fourth, same, Option.bind_eq_bind, Option.bind_some]
  | case3 later =>
    rename_i ih
    obtain ⟨c, known, read⟩ := Option.bind_eq_some_iff.mp read
    obtain ⟨⟨more, r⟩, inner, read⟩ := Option.bind_eq_some_iff.mp read
    cases read
    obtain ⟨same, part⟩ := ih inner
    exact ⟨readQuoted_escaped (by decide) known same, part.trans ⟨['\\', '\''], rfl⟩⟩
  | case4 e later =>
    rename_i quotes ih
    obtain ⟨c, known, read⟩ := Option.bind_eq_some_iff.mp read
    obtain ⟨⟨more, r⟩, inner, read⟩ := Option.bind_eq_some_iff.mp read
    cases read
    obtain ⟨same, part⟩ := ih inner
    have other : e ≠ 'u' := by
      rintro rfl
      cases known
    exact ⟨readQuoted_escaped other (by rw [if_neg quotes]; exact known) same, part.trans ⟨['\\', e], rfl⟩⟩
  | case5 later =>
    cases read
    rw [List.cons_append, readQuoted_plain mark, if_pos rfl]
    exact ⟨rfl, List.suffix_cons _ _⟩
  | case6 c later =>
    rename_i alone other ih
    obtain ⟨⟨more, r⟩, inner, read⟩ := Option.map_eq_some_iff.mp read
    cases read
    obtain ⟨same, part⟩ := ih inner
    have plain : c ≠ '\\' := by
      rintro rfl
      cases later with
      | nil => cases inner
      | cons d later => exact alone d later rfl rfl
    rw [List.cons_append, readQuoted_plain plain, if_neg other, same]
    exact ⟨rfl, part.trans (List.suffix_cons _ _)⟩

theorem takeNumber_append (stops : Stops tail) (p : NumberPart) (cs : List Char) :
    takeNumber p (cs ++ tail) = ((takeNumber p cs).1, (takeNumber p cs).2.1, (takeNumber p cs).2.2 ++ tail) ∧
      (takeNumber p cs).2.2 <:+ cs := by
  induction cs generalizing p with
  | nil =>
    refine ⟨?_, List.suffix_rfl⟩
    cases tail with
    | nil => rfl
    | cons c more => simp [takeNumber, (stops c rfl).next?_eq_none]
  | cons c cs ih =>
    cases next : p.next? c with
    | none => simp [takeNumber, next]
    | some q =>
      obtain ⟨same, part⟩ := ih q
      simp only [List.cons_append, takeNumber, next, same]
      exact ⟨trivial, part.trans (List.suffix_cons _ _)⟩

def radixOf : List Char → Nat × Nat
  | '0' :: c :: _ =>
    if c = 'x' || c = 'X' then (16, 2)
    else if c = 'o' || c = 'O' then (8, 2)
    else if c = 'b' || c = 'B' then (2, 2)
    else (10, 0)
  | _ => (10, 0)

def numberToken? (base : Nat) (text : List Char) (part : NumberPart) : Option Token :=
  if text.getLast? = some '_' then none
  else
    match part with
    | .whole | .radix _ => wholeToken? (digitsValue? base (text.filter (· ≠ '_')))
    | _ => (floatValue? (text.filter (· ≠ '_'))).map .float

theorem readNumber_eq (cs : List Char) :
    readNumber cs =
      let taken := takeNumber (if (radixOf cs).1 = 10 then .whole else .radix (radixOf cs).1) (cs.drop (radixOf cs).2)
      (numberToken? (radixOf cs).1 taken.1 taken.2.1).map fun t => (t, taken.2.2) := by
  unfold readNumber
  split
  rename_i base skipped radix
  rw [show radixOf cs = (base, skipped) from radix]
  dsimp only
  generalize takeNumber _ _ = taken
  obtain ⟨text, part, r⟩ := taken
  dsimp only
  unfold numberToken?
  split
  · rfl
  · cases part <;> exact Option.map_eq_bind.symm

theorem radixOf_append (stops : Stops tail) (filled : cs ≠ []) : radixOf (cs ++ tail) = radixOf cs := by
  rcases cs with _ | ⟨c, _ | ⟨d, more⟩⟩
  · exact absurd rfl filled
  · cases tail with
    | nil => rfl
    | cons d more =>
      have code := (stops d rfl).code
      have other : ∀ e ∈ ['x', 'X', 'o', 'O', 'b', 'B'], d ≠ e := by
        have inside : ∀ e ∈ ['x', 'X', 'o', 'O', 'b', 'B'], 0x20 < e.toNat ∧ e.toNat < 0x7d := by simp
        rintro e member rfl
        have := inside d member
        omega
      simp only [List.mem_cons, List.not_mem_nil, or_false, forall_eq_or_imp, forall_eq] at other
      by_cases zero : c = '0'
      · simp [radixOf, zero, other]
      · simp [radixOf, zero]
  · by_cases zero : c = '0' <;> simp [radixOf, zero]

theorem radixOf_skipped (cs : List Char) : (radixOf cs).2 ≤ cs.length := by
  unfold radixOf
  split
  · split_ifs <;> simp
  · exact Nat.zero_le _

theorem readNumber_append {t : Token} (stops : Stops tail) (read : readNumber cs = some (t, rest)) :
    readNumber (cs ++ tail) = some (t, rest ++ tail) ∧ rest <:+ cs := by
  have filled : cs ≠ [] := by
    rintro rfl
    cases read
  rw [readNumber_eq] at read ⊢
  obtain ⟨token, valued, read⟩ := Option.map_eq_some_iff.mp read
  cases read
  obtain ⟨same, part⟩ := takeNumber_append stops (if (radixOf cs).1 = 10 then .whole else .radix (radixOf cs).1)
    (cs.drop (radixOf cs).2)
  rw [radixOf_append stops filled, List.drop_append_of_le_length (radixOf_skipped cs), same]
  exact ⟨by simp [valued], part.trans (List.drop_suffix _ _)⟩

theorem Stops.append_ne {e : Char} (stops : Stops tail) (code : 0x20 < e.toNat ∧ e.toNat < 0x7d)
    (other : ∀ r, rest = e :: r → False) (r : List Char) : rest ++ tail = e :: r → False := by
  intro same
  cases rest with
  | cons d more =>
    cases same
    exact other more rfl
  | nil =>
    rw [List.nil_append] at same
    have := (stops e (by rw [same]; rfl)).code
    omega

theorem readSymbol_append {s : Symbol} (stops : Stops tail) (read : readSymbol cs = some (s, rest)) :
    readSymbol (cs ++ tail) = some (s, rest ++ tail) ∧ rest <:+ cs := by
  unfold readSymbol at read
  split at read <;> cases read
  all_goals refine ⟨?_, by simp [List.suffix_cons_iff]⟩
  any_goals rfl
  -- The five symbols that a second character may continue.
  all_goals
    rename_i alone
    rw [List.cons_append, readSymbol]
    exact stops.append_ne (by decide) alone

theorem Stops.takeWhile_append (stops : Stops tail) (cs : List Char) :
    (cs ++ tail).takeWhile isNameChar = cs.takeWhile isNameChar := by
  induction cs with
  | nil =>
    cases tail with
    | nil => rfl
    | cons c more => simp [(stops c rfl).not_isNameChar]
  | cons c cs ih => simp only [List.cons_append, List.takeWhile_cons, ih]

theorem Stops.dropWhile_append (stops : Stops tail) (cs : List Char) :
    (cs ++ tail).dropWhile isNameChar = cs.dropWhile isNameChar ++ tail := by
  induction cs with
  | nil =>
    cases tail with
    | nil => rfl
    | cons c more => simp [(stops c rfl).not_isNameChar]
  | cons c cs ih =>
    simp only [List.cons_append, List.dropWhile_cons, ih]
    split <;> rfl

theorem readText_append {quote : Char} {text : String} (mark : quote ≠ '\\')
    (read : readText quote cs = some (text, rest)) (tail : List Char) :
    readText quote (cs ++ tail) = some (text, rest ++ tail) ∧ rest <:+ cs := by
  obtain ⟨⟨ps, r⟩, inner, read⟩ := Option.bind_eq_some_iff.mp read
  obtain ⟨joined, joining, read⟩ := Option.bind_eq_some_iff.mp read
  cases read
  obtain ⟨same, part⟩ := readQuoted_append mark inner tail
  refine ⟨?_, part⟩
  simp [readText, same, joining]

theorem readToken_append {t : Token} (stops : Stops tail) (read : readToken cs = some (t, rest)) :
    readToken (cs ++ tail) = some (t, rest ++ tail) ∧ rest <:+ cs := by
  unfold readToken at read
  split at read
  · obtain ⟨⟨text, r⟩, inner, read⟩ := Option.map_eq_some_iff.mp read
    cases read
    obtain ⟨same, part⟩ := readText_append (by decide) inner tail
    exact ⟨by simp [readToken, same], part.trans (List.suffix_cons _ _)⟩
  · obtain ⟨⟨text, r⟩, inner, read⟩ := Option.map_eq_some_iff.mp read
    cases read
    obtain ⟨same, part⟩ := readText_append (by decide) inner tail
    exact ⟨by simp [readToken, same], part.trans (List.suffix_cons _ _)⟩
  · rename_i c r double single
    have form : readToken (c :: (r ++ tail)) = _ := readToken.eq_3 c (r ++ tail) double single
    rw [List.cons_append, form]
    split at read
    · rename_i digit
      rw [if_pos digit]
      exact readNumber_append stops read
    · rename_i digit
      rw [if_neg digit]
      split at read
      · rename_i name
        cases read
        rw [if_pos name, ← List.cons_append, stops.takeWhile_append, stops.dropWhile_append]
        exact ⟨rfl, List.dropWhile_suffix isNameChar⟩
      · rename_i name
        obtain ⟨⟨s, r⟩, inner, read⟩ := Option.map_eq_some_iff.mp read
        cases read
        obtain ⟨same, part⟩ := readSymbol_append stops inner
        rw [List.cons_append] at same
        rw [if_neg name, same]
        exact ⟨rfl, part⟩
  · cases read

theorem readSymbol_blank (blank : isBlank c = true) (cs : List Char) : readSymbol (c :: cs) = none := by
  cases read : readSymbol (c :: cs) with
  | none => rfl
  | some found =>
    unfold readSymbol at read
    split at read
    case h_26 => cases read
    all_goals
      rename_i same
      cases same
      exact absurd blank (by decide)

theorem readToken_blank (blank : isBlank c = true) (cs : List Char) : readToken (c :: cs) = none := by
  have code := isBlank_code blank
  have name : isNameChar c = false := isStop.not_isNameChar (.inl blank)
  simp only [isNameChar, Char.isAlphanum, Bool.or_eq_false_iff] at name
  obtain ⟨⟨alpha, digit⟩, underscore⟩ := name
  rw [readToken]
  · simp [digit, isNameStart, alpha, underscore, readSymbol_blank blank]
  · rintro rfl
    exact absurd blank (by decide)
  · rintro rfl
    exact absurd blank (by decide)

theorem readToken_closeBrace (cs : List Char) : readToken ('\x7d' :: cs) = some (.symbol .closeBrace, cs) := rfl

theorem readToken_minus (cs : List Char) : readToken ('-' :: cs) = some (.symbol .minus, cs) := rfl

end Provision.Template
