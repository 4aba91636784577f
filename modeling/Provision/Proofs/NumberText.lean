import Mathlib.Data.List.Basic
import Mathlib.Data.List.TakeWhile
import Provision.Json.Printer
import Provision.Json.Source

namespace Provision

namespace Source

def EndsNumber (rest : List Char) : Prop :=
  ∀ c, rest.head? = some c → isDigit c = false ∧ c ≠ '.' ∧ c ≠ 'e' ∧ c ≠ 'E'

structure AreDigits (ds : List Char) : Prop where
  present : ds ≠ []
  each : ∀ c ∈ ds, isDigit c = true

inductive IsWhole : List Char → Prop
  | zero : IsWhole ['0']
  | digits {ds : List Char} (digits : AreDigits ds) (leading : ds.head? ≠ some '0') : IsWhole ds

inductive IsFraction : List Char → Prop
  | none : IsFraction []
  | digits {ds : List Char} (digits : AreDigits ds) : IsFraction ('.' :: ds)

/-- An exponent with a sign, as it is written; the grammar has others. -/
inductive IsExponent : List Char → Prop
  | none : IsExponent []
  | signed {sign : Char} {ds : List Char} (sign_mem : sign = '+' ∨ sign = '-') (digits : AreDigits ds) :
    IsExponent ('e' :: sign :: ds)

inductive IsUnsigned : List Char → Prop
  | parts {whole fraction exponent : List Char} (whole_ok : IsWhole whole) (fraction_ok : IsFraction fraction)
    (exponent_ok : IsExponent exponent) : IsUnsigned (whole ++ fraction ++ exponent)

inductive IsNumber : List Char → Prop
  | plain {text : List Char} (unsigned : IsUnsigned text) : IsNumber text
  | minus {text : List Char} (unsigned : IsUnsigned text) : IsNumber ('-' :: text)

theorem areDigits_zero : AreDigits ['0'] where
  present := List.cons_ne_nil _ _
  each c member := by
    rw [List.mem_singleton.mp member]
    decide

theorem AreDigits.append {ds es : List Char} (left : AreDigits ds) (right : ∀ c ∈ es, isDigit c = true) :
    AreDigits (ds ++ es) where
  present := List.append_ne_nil_of_left_ne_nil left.present es
  each c member := by
    rcases List.mem_append.mp member with member | member
    · exact left.each c member
    · exact right c member

section

variable {text rest : List Char}

theorem EndsNumber.notDigit (ends : EndsNumber rest) : ∀ c, rest.head? = some c → isDigit c = false :=
  fun c head => (ends c head).1

theorem readDigits_append {ds : List Char} (digits : AreDigits ds)
    (stop : ∀ c, rest.head? = some c → isDigit c = false) : readDigits (ds ++ rest) = some (ds, rest) := by
  have taken : rest.takeWhile isDigit = [] ∧ rest.dropWhile isDigit = rest := by
    cases rest with
    | nil => exact ⟨rfl, rfl⟩
    | cons c more => simp [stop c rfl]
  have nonempty : ds.isEmpty = false := List.isEmpty_eq_false_iff.mpr digits.present
  simp only [readDigits, List.takeWhile_append_of_pos digits.each, List.dropWhile_append_of_pos digits.each,
    taken.1, taken.2, List.append_nil, nonempty, Bool.false_eq_true, ↓reduceIte]

theorem readWhole_append {whole : List Char} (ok : IsWhole whole)
    (stop : ∀ c, rest.head? = some c → isDigit c = false) : readWhole (whole ++ rest) = some (whole, rest) := by
  cases ok with
  | zero => rfl
  | digits digits leading =>
    rw [readWhole]
    · exact readDigits_append digits stop
    · intro more same
      obtain ⟨c, ds, rfl⟩ := List.exists_cons_of_ne_nil digits.present
      exact leading (congrArg some (List.cons.inj same).1)

theorem readFraction_append {fraction : List Char} (ok : IsFraction fraction)
    (stop : ∀ c, rest.head? = some c → isDigit c = false ∧ c ≠ '.') :
    readFraction (fraction ++ rest) = some (fraction, rest) := by
  cases ok with
  | none =>
    cases rest with
    | nil => rfl
    | cons c more =>
      rw [List.nil_append, readFraction]
      exact fun tail same => (stop c rfl).2 (List.cons.inj same).1
  | digits digits =>
    rw [List.cons_append, readFraction, readDigits_append digits fun c head => (stop c head).1]
    rfl

theorem readExponent_append {exponent : List Char} (ok : IsExponent exponent) (ends : EndsNumber rest) :
    readExponent (exponent ++ rest) = some (exponent, rest) := by
  cases ok with
  | none =>
    cases rest with
    | nil => rfl
    | cons c more =>
      have other := (ends c rfl).2.2
      simp [readExponent, other.1, other.2]
  | signed sign digits =>
    have read := readDigits_append digits ends.notDigit
    rcases sign with rfl | rfl <;> simp [readExponent, read]

theorem IsExponent.stops {exponent : List Char} (ok : IsExponent exponent) (ends : EndsNumber rest) (c : Char)
    (head : (exponent ++ rest).head? = some c) : isDigit c = false ∧ c ≠ '.' := by
  cases ok with
  | none => exact ⟨(ends c head).1, (ends c head).2.1⟩
  | signed sign digits =>
    cases head
    decide

theorem readUnsigned_append (ok : IsUnsigned text) (ends : EndsNumber rest) :
    readUnsigned (text ++ rest) = some (text, rest) := by
  obtain ⟨whole, fraction, exponent⟩ := ok
  rename_i w f e
  have afterFraction := exponent.stops ends
  have afterWhole : ∀ c, (f ++ (e ++ rest)).head? = some c → isDigit c = false := by
    intro c head
    cases fraction with
    | none => exact (afterFraction c head).1
    | digits digits =>
      cases head
      decide
  simp [readUnsigned, readWhole_append whole afterWhole, readFraction_append fraction afterFraction,
    readExponent_append exponent ends]

theorem IsWhole.digits_of {whole : List Char} (ok : IsWhole whole) : AreDigits whole := by
  cases ok with
  | zero => exact areDigits_zero
  | digits digits => exact digits

theorem IsUnsigned.head (ok : IsUnsigned text) : ∃ c more, text = c :: more ∧ isDigit c = true := by
  obtain ⟨whole, fraction, exponent⟩ := ok
  obtain ⟨c, ds, rfl⟩ := List.exists_cons_of_ne_nil whole.digits_of.present
  exact ⟨c, _, rfl, whole.digits_of.each c List.mem_cons_self⟩

theorem IsNumber.head (ok : IsNumber text) : ∃ c more, text = c :: more ∧ (c = '-' ∨ isDigit c = true) := by
  cases ok with
  | plain unsigned =>
    obtain ⟨c, more, rfl, digit⟩ := unsigned.head
    exact ⟨c, more, rfl, Or.inr digit⟩
  | minus unsigned => exact ⟨'-', _, rfl, Or.inl rfl⟩

theorem readNumber_append (ok : IsNumber text) (ends : EndsNumber rest) :
    readNumber (text ++ rest) = some (text, rest) := by
  cases ok with
  | plain unsigned =>
    obtain ⟨c, more, rfl, digit⟩ := unsigned.head
    rw [readNumber]
    · exact readUnsigned_append unsigned ends
    · intro tail same
      cases (List.cons.inj same).1
      exact absurd digit (by decide)
  | minus unsigned =>
    rw [List.cons_append, readNumber, readUnsigned_append unsigned ends]
    rfl

end

end Source

namespace Decimal

open Source (isDigit IsWhole IsFraction IsExponent IsUnsigned IsNumber)

theorem toDigits_digits (n : Nat) : Source.AreDigits (Nat.toDigits 10 n) where
  present := Nat.toDigits_ne_nil
  each _ member := Nat.isDigit_of_mem_toDigits (by decide) (by decide) member

theorem toDigits_leading {n : Nat} (positive : n ≠ 0) : (Nat.toDigits 10 n).head? ≠ some '0' := by
  induction n using Nat.strongRecOn with
  | ind n ih =>
    by_cases small : n < 10
    · have nonzero : ∀ m < 10, m ≠ 0 → Nat.digitChar m ≠ '0' := by decide
      rw [Nat.toDigits_of_lt_base small]
      exact fun same => nonzero n small positive (Option.some.inj same)
    · have shorter := ih (n / 10) (by omega) (by omega)
      rw [Nat.toDigits_of_base_le (by decide) (by omega), List.head?_append_of_ne_nil _ Nat.toDigits_ne_nil]
      exact shorter

theorem toDigits_whole (n : Nat) : IsWhole (Nat.toDigits 10 n) := by
  by_cases zero : n = 0
  · subst zero
    exact IsWhole.zero
  · exact IsWhole.digits (toDigits_digits n) (toDigits_leading zero)

theorem zeros_digits (n : Nat) : ∀ c ∈ List.replicate n '0', isDigit c = true := by
  intro c member
  rw [List.eq_of_mem_replicate member]
  decide

theorem Interval.onGrid?_pos {i : Interval} {e : Int} {x : Digits} (found : i.onGrid? e = some x) :
    x.digits ≠ 0 := by
  unfold onGrid? at found
  simp only at found
  split at found
  · cases found
  · rename_i down up
    cases found
    exact (by simpa using down : _ ∧ _).1
  · cases found
    exact Nat.succ_ne_zero _
  · rename_i down up
    rcases (ite_eq_or_eq _ _ _).imp found.symm.trans found.symm.trans with same | same
    · cases same
      exact (by simpa using down : _ ∧ _).1
    · cases same
      exact Nat.succ_ne_zero _

theorem Digits.strip_pos {x : Digits} (positive : x.digits ≠ 0) (n : Nat) : (x.strip n).digits ≠ 0 := by
  induction n generalizing x with
  | zero => exact positive
  | succ n ih =>
    unfold strip
    split
    · exact ih (by simp only; omega)
    · exact positive

theorem Magnitude.shortest_pos {x : Magnitude} (positive : x.mantissa ≠ 0) : x.shortest.digits ≠ 0 := by
  unfold shortest
  apply Digits.strip_pos
  generalize found : List.findSome? _ (List.range 17) = best
  cases best with
  | none => exact positive
  | some best =>
    obtain ⟨n, -, here⟩ := List.exists_of_findSome?_eq_some found
    exact Interval.onGrid?_pos here

theorem Binary64.magnitude_pos {x : Binary64} (nonzero : x.isZero = false) : x.magnitude.mantissa ≠ 0 := by
  have bits : x.unsignedBits ≠ 0 := by simpa [isZero] using nonzero
  unfold magnitude
  split
  · rename_i subnormal
    rw [biasedExponent, Nat.div_eq_zero_iff] at subnormal
    have small : x.unsignedBits < Nat.pow 2 52 := subnormal.resolve_left (by decide)
    rw [fraction, Nat.mod_eq_of_lt small]
    exact bits
  · have implicit : 0 < Nat.pow 2 52 := by decide
    simp only
    omega

section

variable {ds : List Char} (digits : Source.AreDigits ds) (leading : ds.head? ≠ some '0')

include digits leading

theorem IsWhole.append_digits {es : List Char} (more : ∀ c ∈ es, isDigit c = true) : IsWhole (ds ++ es) :=
  .digits (digits.append more) (by rwa [List.head?_append_of_ne_nil _ digits.present])

theorem positionalText_unsigned (e : Int) : IsUnsigned (positionalText ds e) := by
  unfold positionalText
  split
  · have behind : Source.AreDigits (List.replicate ((-e).toNat - 1) '0' ++ ds) :=
      ⟨List.append_ne_nil_of_right_ne_nil _ digits.present, by
        intro c member
        rcases List.mem_append.mp member with member | member
        · exact zeros_digits _ c member
        · exact digits.each c member⟩
    simpa using IsUnsigned.parts .zero (.digits behind) .none
  · simp only
    split
    · have whole := IsWhole.append_digits digits leading (zeros_digits (e.toNat + 1 - ds.length))
      simpa using IsUnsigned.parts whole (.digits Source.areDigits_zero) .none
    · rename_i longer
      have whole : IsWhole (ds.take (e.toNat + 1)) := by
        refine .digits ⟨?_, fun c member => digits.each c (List.mem_of_mem_take member)⟩ ?_
        · intro empty
          have length := congrArg List.length empty
          simp only [List.length_take, List.length_nil] at length
          omega
        · rwa [List.head?_take, if_neg (Nat.succ_ne_zero _)]
      have behind : Source.AreDigits (ds.drop (e.toNat + 1)) := by
        refine ⟨?_, fun c member => digits.each c (List.mem_of_mem_drop member)⟩
        intro empty
        exact longer (List.drop_eq_nil_iff.mp empty)
      simpa using IsUnsigned.parts whole (.digits behind) .none

theorem exponentText_unsigned {l : Layout} (plus : l.plusSign = true) (e : Int) :
    IsUnsigned (l.exponentText ds e) := by
  have exponent : Source.AreDigits (padLeft l.exponentWidth (Nat.toDigits 10 e.natAbs)) :=
    ⟨List.append_ne_nil_of_right_ne_nil _ Nat.toDigits_ne_nil, by
      intro c member
      rcases List.mem_append.mp member with member | member
      · exact zeros_digits _ c member
      · exact (toDigits_digits _).each c member⟩
  obtain ⟨d, r, rfl⟩ := List.exists_cons_of_ne_nil digits.present
  have whole : IsWhole [d] := .digits ⟨List.cons_ne_nil d [], by simpa using digits.each d List.mem_cons_self⟩ leading
  have sign : ∃ s, (s = '+' ∨ s = '-') ∧
      (if e < 0 then ['-'] else if l.plusSign = true then ['+'] else []) = [s] := by
    simp only [plus, ↓reduceIte]
    split
    · exact ⟨'-', Or.inr rfl, rfl⟩
    · exact ⟨'+', Or.inl rfl, rfl⟩
  obtain ⟨s, signed, written⟩ := sign
  unfold Layout.exponentText
  simp only [written]
  split
  · simpa using IsUnsigned.parts whole .none (.signed signed exponent)
  · rename_i longer
    have behind : Source.AreDigits r :=
      ⟨by simpa using longer, fun c member => digits.each c (List.mem_cons_of_mem d member)⟩
    simpa using IsUnsigned.parts whole (.digits behind) (.signed signed exponent)

end

/-- The text of a double is a number, where an exponent that is not negative gets a sign too. -/
theorem Layout.write_isNumber {l : Layout} (plus : l.plusSign = true) (x : Binary64) : IsNumber (l.write x) := by
  have signed : ∀ {text : List Char}, IsUnsigned text →
      IsNumber ((if x.negative then ['-'] else []) ++ text) := by
    intro text unsigned
    split
    · exact .minus unsigned
    · exact .plain unsigned
  unfold write
  simp only
  split
  · exact signed (.parts .zero (.digits Source.areDigits_zero) .none)
  · rename_i nonzero
    have positive := Magnitude.shortest_pos (Binary64.magnitude_pos (by simpa using nonzero))
    apply signed
    split
    · exact positionalText_unsigned (toDigits_digits _) (toDigits_leading positive) _
    · exact exponentText_unsigned (toDigits_digits _) (toDigits_leading positive) plus _

end Decimal

namespace Json

open Source (IsNumber IsUnsigned)

theorem intText_negSucc (m : Nat) : (Text.intText (.negSucc m)).toList = '-' :: Nat.toDigits 10 (m + 1) := by
  simp [Text.intText, Text.natText]

theorem intText_isNumber (n : Int) : IsNumber (Text.intText n).toList := by
  have plain : ∀ m : Nat, IsUnsigned (Nat.toDigits 10 m) := by
    intro m
    simpa using IsUnsigned.parts (Decimal.toDigits_whole m) .none .none
  cases n with
  | ofNat m =>
    rw [Text.intText, Text.natText, String.toList_ofList]
    exact .plain (plain m)
  | negSucc m =>
    rw [intText_negSucc]
    exact .minus (plain (m + 1))

theorem numberText_isNumber {n : Number} (finite : ∀ x, n = .double x → x.isFinite = true) :
    IsNumber (numberText n) := by
  cases n with
  | int m => exact intText_isNumber m
  | double x =>
    rw [numberText, if_pos (finite x rfl)]
    exact Decimal.Layout.write_isNumber rfl x

end Json

namespace Source

theorem le_ofDigitChars (cs : List Char) (n : Nat) : n ≤ Nat.ofDigitChars 10 cs n := by
  induction cs generalizing n with
  | nil => exact Nat.le_refl n
  | cons c cs ih =>
    rw [Nat.ofDigitChars_cons]
    exact Nat.le_trans (by omega) (ih _)

theorem takeSignificand_of_fits {cs : List Char} {n : Nat} (fits : Nat.ofDigitChars 10 cs n < 0x10000000000000000) :
    takeSignificand n cs = (Nat.ofDigitChars 10 cs n, []) := by
  induction cs generalizing n with
  | nil => rfl
  | cons c cs ih =>
    have step : n * 10 + (c.toNat - 48) = 10 * n + (c.toNat - '0'.toNat) := by
      rw [Nat.mul_comm]
      rfl
    rw [Nat.ofDigitChars_cons] at fits ⊢
    have small := Nat.lt_of_le_of_lt (le_ofDigitChars cs _) fits
    rw [takeSignificand]
    simp only [step]
    rw [if_pos (by simpa using small), ih fits]

theorem AreDigits.takeWhile_eq {ds : List Char} (digits : AreDigits ds) : ds.takeWhile isDigit = ds :=
  List.takeWhile_eq_self_iff.mpr digits.each

theorem AreDigits.dropWhile_eq {ds : List Char} (digits : AreDigits ds) : ds.dropWhile isDigit = [] :=
  List.dropWhile_eq_nil_iff.mpr digits.each

theorem numberValue?_digits {ds : List Char} (digits : AreDigits ds)
    (fits : Nat.ofDigitChars 10 ds 0 < 0x10000000000000000) :
    numberValue? ds = some (.int (Nat.ofDigitChars 10 ds 0)) := by
  have plain : ds.head? ≠ some '-' := by
    intro head
    exact absurd (digits.each '-' (List.mem_of_mem_head? head)) (by decide)
  simp [numberValue?, plain, digits.takeWhile_eq, digits.dropWhile_eq, takeSignificand_of_fits fits]

theorem numberValue?_minus {ds : List Char} (digits : AreDigits ds) (nonzero : Nat.ofDigitChars 10 ds 0 ≠ 0)
    (fits : Nat.ofDigitChars 10 ds 0 ≤ 0x8000000000000000) :
    numberValue? ('-' :: ds) = some (.int (-(Nat.ofDigitChars 10 ds 0 : Int))) := by
  have taken := takeSignificand_of_fits (Nat.lt_of_le_of_lt fits (by decide))
  simp [numberValue?, digits.takeWhile_eq, digits.dropWhile_eq, taken, nonzero, fits]

theorem numberValue?_intText {n : Int} (above : -0x8000000000000000 ≤ n) (below : n < 0x10000000000000000) :
    numberValue? (Text.intText n).toList = some (.int n) := by
  have value : ∀ m : Nat, Nat.ofDigitChars 10 (Nat.toDigits 10 m) 0 = m := fun _ =>
    Nat.ofDigitChars_toDigits (by decide) (by decide)
  cases n with
  | ofNat m =>
    rw [Text.intText, Text.natText, String.toList_ofList,
      numberValue?_digits (Decimal.toDigits_digits m) (by rw [value]; exact Int.ofNat_lt.mp below), value]
    rfl
  | negSucc m =>
    rw [Json.intText_negSucc, numberValue?_minus (Decimal.toDigits_digits (m + 1)) (by rw [value]; omega)
      (by rw [value]; omega), value]
    rfl

end Source

end Provision
