import Mathlib.Data.List.DropRight
import Provision.Proofs.JsonFields
import Provision.Proofs.NumberText

namespace Provision

namespace Source

def pieceOf (c : Char) : Piece :=
  if c.toNat < 0x20 ∧ c ∉ ['\x08', '\x0c', '\n', '\r', '\t'] then .unit c.toNat else .char c

theorem hexValue?_hexDigit {n : Nat} (digit : n < 16) : hexValue? (Json.hexDigit n) = some n := by
  have all : ∀ m < 16, hexValue? (Json.hexDigit m) = some m := by decide
  exact all n digit

theorem readPieces_letter {e c : Char} (letter : simpleEscape? e = some c) (rest : List Char) :
    readPieces ('\\' :: e :: rest) = (readPieces rest).map fun (ps, r) => (.char c :: ps, r) := by
  rw [readPieces]
  · rw [letter]
    cases readPieces rest <;> rfl
  · intro a b c d more four
    subst four
    cases letter

theorem readPieces_unit {n : Nat} (control : n < 0x20) (rest : List Char) :
    readPieces (['\\', 'u', '0', '0', Json.hexDigit (n / 16), Json.hexDigit (n % 16)] ++ rest) =
      (readPieces rest).map fun (ps, r) => (.unit n :: ps, r) := by
  have high := hexValue?_hexDigit (n := n / 16) (by omega)
  have low := hexValue?_hexDigit (n := n % 16) (by omega)
  have zero : hexValue? '0' = some 0 := rfl
  have sum : n / 16 * 16 + n % 16 = n := Nat.div_add_mod' n 16
  simp only [List.cons_append, List.nil_append, readPieces, high, low, zero]
  cases readPieces rest <;> simp [sum]

theorem readPieces_escapeChar (c : Char) (rest : List Char) :
    readPieces (Json.escapeChar c ++ rest) = (readPieces rest).map fun (ps, r) => (pieceOf c :: ps, r) := by
  unfold Json.escapeChar
  split
  · exact readPieces_letter rfl rest
  · exact readPieces_letter rfl rest
  · exact readPieces_letter rfl rest
  · exact readPieces_letter rfl rest
  · exact readPieces_letter rfl rest
  · exact readPieces_letter rfl rest
  · exact readPieces_letter rfl rest
  · rename_i quote backslash b f n r t
    have plain : c ≠ '\\' := backslash
    split
    · rename_i control
      have unit : pieceOf c = .unit c.toNat := if_pos ⟨control, by simp; exact ⟨b, f, n, r, t⟩⟩
      rw [readPieces_unit control, unit]
    · rename_i printable
      have char : pieceOf c = .char c := if_neg fun both => printable both.1
      rw [List.singleton_append, readPieces, if_neg (by simp [printable, plain]), char]
      · exact quote
      · exact fun _ _ _ _ _ same => absurd same plain
      · exact fun _ _ same => absurd same plain

theorem readPieces_escaped (cs rest : List Char) :
    readPieces (cs.flatMap Json.escapeChar ++ '"' :: rest) = some (cs.map pieceOf, rest) := by
  induction cs with
  | nil => rfl
  | cons c cs ih =>
    rw [List.flatMap_cons, List.append_assoc, readPieces_escapeChar, ih]
    rfl

theorem joinPieces_cons (c : Char) (cs : List Char) :
    joinPieces (pieceOf c :: cs.map pieceOf) = (joinPieces (cs.map pieceOf)).map (c :: ·) := by
  by_cases control : c.toNat < 0x20 ∧ c ∉ ['\x08', '\x0c', '\n', '\r', '\t']
  · have unit : pieceOf c = .unit c.toNat := if_pos control
    have low : ¬ 0xd800 ≤ c.toNat ∧ ¬ 0xdc00 ≤ c.toNat := by omega
    have back : Char.ofNat c.toNat = c := Char.ofNat_toNat c
    rw [unit]
    cases pieces : cs.map pieceOf with
    | nil => simp [joinPieces, low.1, back]
    | cons piece more => cases piece <;> simp [joinPieces, low.1, low.2, back]
  · have char : pieceOf c = .char c := if_neg control
    rw [char, joinPieces]

theorem joinPieces_map (cs : List Char) : joinPieces (cs.map pieceOf) = some cs := by
  induction cs with
  | nil => rfl
  | cons c cs ih =>
    rw [List.map_cons, joinPieces_cons, ih]
    rfl

theorem readString_escaped (s : String) (rest : List Char) :
    readString (s.toList.flatMap Json.escapeChar ++ '"' :: rest) = some (some s, rest) := by
  simp only [readString, readPieces_escaped, Option.map_some, joinPieces_map, String.ofList_toList]

def IsGap (gap : List Char) : Prop := ∀ c ∈ gap, isSpace c = true

theorem isGap_nil : IsGap [] := by simp [IsGap]

theorem isGap_blank : IsGap [' '] := by simp [IsGap, isSpace]

theorem skip_gap {gap rest : List Char} (blank : IsGap gap) : skip (gap ++ rest) = skip rest :=
  List.dropWhile_append_of_pos blank

theorem skip_skip (cs : List Char) : skip (skip cs) = skip cs := List.dropWhile_idempotent _ cs

theorem skip_cons {c : Char} (solid : isSpace c = false) (rest : List Char) : skip (c :: rest) = c :: rest :=
  List.dropWhile_cons_of_neg (by simp [solid])

theorem skip_token {gap : List Char} (c : Char) (solid : isSpace c = false) (blank : IsGap gap) (rest : List Char) :
    skip (gap ++ c :: rest) = c :: rest := by
  rw [skip_gap blank, skip_cons solid]

theorem ends_of_isSpace {c : Char} (space : isSpace c = true) : isDigit c = false ∧ c ≠ '.' ∧ c ≠ 'e' ∧ c ≠ 'E' := by
  simp only [isSpace, Bool.or_eq_true, decide_eq_true_eq] at space
  rcases space with ((rfl | rfl) | rfl) | rfl <;> decide

theorem endsNumber_cons {c : Char} (ends : isDigit c = false ∧ c ≠ '.' ∧ c ≠ 'e' ∧ c ≠ 'E') (rest : List Char) :
    EndsNumber (c :: rest) := by
  intro d head
  cases head
  exact ends

theorem endsNumber_gap {gap rest : List Char} (blank : IsGap gap) (ends : EndsNumber rest) :
    EndsNumber (gap ++ rest) := by
  cases gap with
  | nil => exact ends
  | cons c more => exact endsNumber_cons (ends_of_isSpace (blank c List.mem_cons_self)) _

theorem solid_of_start {c : Char} (start : c = '-' ∨ isDigit c = true) : isSpace c = false ∧ c ≠ ']' := by
  rcases start with rfl | digit
  · decide
  · constructor
    · refine Bool.eq_false_iff.mpr fun space => ?_
      rw [(ends_of_isSpace space).1] at digit
      cases digit
    · rintro rfl
      exact absurd digit (by decide)

mutual

/-- A text that starts with the value and ends with it. -/
inductive Spells : Source → List Char → Prop
  | null : Spells .null ['n', 'u', 'l', 'l']
  | bool (b : Bool) : Spells (.bool b) (if b then "true" else "false").toList
  | number {text : List Char} (ok : IsNumber text) : Spells (.number text) text
  | string (s : String) : Spells (.string (some s)) (Json.quoted s)
  | noItems : Spells (.array []) ['[', ']']
  | items {items : List Source} {text : List Char} (each : SpellsItems items text) :
    Spells (.array items) ('[' :: text)
  | noFields : Spells (.object []) ['\x7b', '\x7d']
  | fields {fields : List (Option String × Source)} {text : List Char} (each : SpellsFields fields text) :
    Spells (.object fields) ('\x7b' :: text)

inductive SpellsItems : List Source → List Char → Prop
  | last {v : Source} {before text after : List Char} (ahead : IsGap before) (value : Spells v text)
    (behind : IsGap after) : SpellsItems [v] (before ++ (text ++ (after ++ [']'])))
  | more {v : Source} {items : List Source} {before text after texts : List Char} (ahead : IsGap before)
    (value : Spells v text) (behind : IsGap after) (rest : SpellsItems items texts) :
    SpellsItems (v :: items) (before ++ (text ++ (after ++ ',' :: texts)))

inductive SpellsFields : List (Option String × Source) → List Char → Prop
  | last {k : String} {v : Source} {before between text after : List Char} (ahead : IsGap before)
    (inner : IsGap between) (value : Spells v text) (behind : IsGap after) :
    SpellsFields [(some k, v)] (before ++ (Json.quoted k ++ ':' :: (between ++ (text ++ (after ++ ['\x7d'])))))
  | more {k : String} {v : Source} {fields : List (Option String × Source)}
    {before between text after texts : List Char} (ahead : IsGap before) (inner : IsGap between)
    (value : Spells v text) (behind : IsGap after) (rest : SpellsFields fields texts) :
    SpellsFields ((some k, v) :: fields)
      (before ++ (Json.quoted k ++ ':' :: (between ++ (text ++ (after ++ ',' :: texts)))))

end

theorem Spells.head {v : Source} {text : List Char} (spelt : Spells v text) :
    ∃ c more, text = c :: more ∧ isSpace c = false ∧ c ≠ ']' := by
  cases spelt with
  | null => exact ⟨_, _, rfl, by decide, by decide⟩
  | bool b => cases b <;> exact ⟨_, _, rfl, by decide, by decide⟩
  | number ok =>
    obtain ⟨c, more, rfl, start⟩ := ok.head
    exact ⟨c, more, rfl, solid_of_start start⟩
  | string s => exact ⟨_, _, rfl, by decide, by decide⟩
  | noItems => exact ⟨_, _, rfl, by decide, by decide⟩
  | items each => exact ⟨_, _, rfl, by decide, by decide⟩
  | noFields => exact ⟨_, _, rfl, by decide, by decide⟩
  | fields each => exact ⟨_, _, rfl, by decide, by decide⟩

theorem Spells.skip_gap {v : Source} {gap text : List Char} (spelt : Spells v text) (blank : IsGap gap)
    (rest : List Char) : skip (gap ++ (text ++ rest)) = text ++ rest := by
  obtain ⟨c, more, rfl, solid, -⟩ := spelt.head
  rw [Source.skip_gap blank, List.cons_append, skip_cons solid]

theorem SpellsItems.head {vs : List Source} {text : List Char} (spelt : SpellsItems vs text) (rest : List Char) :
    ∃ c more, skip (text ++ rest) = c :: more ∧ c ≠ ']' := by
  cases spelt with
  | last ahead value =>
    obtain ⟨c, more, rfl, -, other⟩ := value.head
    exact ⟨c, _, by simpa using value.skip_gap ahead _, other⟩
  | more ahead value =>
    obtain ⟨c, more, rfl, -, other⟩ := value.head
    exact ⟨c, _, by simpa using value.skip_gap ahead _, other⟩

theorem skip_quoted {gap : List Char} (blank : IsGap gap) (k : String) (rest : List Char) :
    skip (gap ++ (Json.quoted k ++ rest)) = '"' :: (k.toList.flatMap Json.escapeChar ++ '"' :: rest) := by
  simpa [Json.quoted] using (Spells.string k).skip_gap blank rest

theorem SpellsFields.head {fs : List (Option String × Source)} {text : List Char} (spelt : SpellsFields fs text)
    (rest : List Char) : ∃ more, skip (text ++ rest) = '"' :: more := by
  cases spelt with
  | last ahead => exact ⟨_, by simpa using skip_quoted ahead _ _⟩
  | more ahead => exact ⟨_, by simpa using skip_quoted ahead _ _⟩

theorem readValue_skip (fuel : Nat) (cs : List Char) : readValue fuel (skip cs) = readValue fuel cs := by
  cases fuel with
  | zero => rfl
  | succ fuel => rw [readValue, readValue, skip_skip]

theorem readItems_skip (fuel : Nat) (cs : List Char) : readItems fuel (skip cs) = readItems fuel cs := by
  cases fuel with
  | zero => rfl
  | succ fuel => rw [readItems, readItems, readValue_skip]

theorem readFields_skip (fuel : Nat) (cs : List Char) : readFields fuel (skip cs) = readFields fuel cs := by
  cases fuel with
  | zero => rfl
  | succ fuel => rw [readFields, readFields, skip_skip]

theorem readValue_number {c : Char} (start : c = '-' ∨ isDigit c = true) (fuel : Nat) (cs : List Char) :
    readValue (fuel + 1) (c :: cs) = (readNumber (c :: cs)).map fun (t, r) => (.number t, r) := by
  have other : ∀ d, (d ≠ '-' ∧ isDigit d = false) → c ≠ d := by
    rintro d ⟨notMinus, notDigit⟩ rfl
    rcases start with rfl | digit
    · exact notMinus rfl
    · exact absurd digit (by simp [notDigit])
  rw [readValue, skip_cons (solid_of_start start).1]
  split
  case h_7 => rfl
  all_goals
    rename_i same
    exact absurd (List.cons.inj same).1 (other _ (by decide))

/-- The texts shorter than the fuel are read to what they spell. -/
structure ReadsWithin (fuel : Nat) : Prop where
  value : ∀ {v gap text rest}, IsGap gap → Spells v text → EndsNumber rest → text.length < fuel →
    readValue fuel (gap ++ (text ++ rest)) = some (v, rest)
  items : ∀ {vs text} rest, SpellsItems vs text → text.length < fuel → readItems fuel (text ++ rest) = some (vs, rest)
  fields : ∀ {fs text} rest, SpellsFields fs text → text.length < fuel →
    readFields fuel (text ++ rest) = some (fs, rest)

section

variable {fuel : Nat} (within : ReadsWithin fuel)

include within

theorem ReadsWithin.nextValue {v : Source} {gap text rest : List Char} (blank : IsGap gap) (spelt : Spells v text)
    (ends : EndsNumber rest) (short : text.length < fuel + 1) :
    readValue (fuel + 1) (gap ++ (text ++ rest)) = some (v, rest) := by
  rw [← readValue_skip, spelt.skip_gap blank]
  -- The parts of an array or object are shorter than it, so `within` reads them.
  cases spelt with
  | null => rfl
  | bool b => cases b <;> rfl
  | number ok =>
    have read := readNumber_append ok ends
    obtain ⟨c, more, rfl, start⟩ := ok.head
    rw [List.cons_append] at read ⊢
    rw [readValue_number start, read]
    rfl
  | string s =>
    have read := readString_escaped s rest
    simp only [Json.quoted, List.cons_append, List.append_assoc, List.nil_append]
    rw [readValue, skip_cons (by decide)]
    simp only [read, Option.map_some]
  | noItems => rfl
  | items each =>
    obtain ⟨c, more, start, other⟩ := each.head rest
    have read := within.items rest each (by simpa using short)
    rw [← readItems_skip, start] at read
    rw [List.cons_append, readValue, skip_cons (by decide)]
    simp only [start]
    split
    · rename_i same
      exact absurd (List.cons.inj same).1 other
    · rw [read]
      rfl
  | noFields => rfl
  | fields each =>
    obtain ⟨more, start⟩ := each.head rest
    have read := within.fields rest each (by simpa using short)
    rw [← readFields_skip, start] at read
    rw [List.cons_append, readValue, skip_cons (by decide)]
    simp only [start]
    change (readFields fuel ('"' :: more)).map _ = _
    rw [read]
    rfl

theorem ReadsWithin.enclosed {v : Source} {before text after : List Char} (c : Char) (rest : List Char)
    (closing : c ∈ [',', ']', '\x7d']) (ahead : IsGap before) (spelt : Spells v text) (behind : IsGap after)
    (short : text.length < fuel) :
    readValue fuel (before ++ (text ++ (after ++ c :: rest))) = some (v, after ++ c :: rest) := by
  have ends : isDigit c = false ∧ c ≠ '.' ∧ c ≠ 'e' ∧ c ≠ 'E' := by
    simp only [List.mem_cons, List.not_mem_nil, or_false] at closing
    rcases closing with rfl | rfl | rfl <;> decide
  exact within.value ahead spelt (endsNumber_gap behind (endsNumber_cons ends rest)) short

theorem ReadsWithin.nextItems {vs : List Source} {text : List Char} (rest : List Char) (spelt : SpellsItems vs text)
    (short : text.length < fuel + 1) : readItems (fuel + 1) (text ++ rest) = some (vs, rest) := by
  cases spelt with
  | last ahead value behind =>
    simp only [List.length_append, List.length_cons, List.length_nil] at short
    have first := within.enclosed ']' rest (by decide) ahead value behind (by omega)
    simp only [List.append_assoc, List.cons_append, List.nil_append]
    rw [readItems, first]
    simp only [skip_token ']' (by decide) behind]
  | @more v items before text after texts ahead value behind later =>
    simp only [List.length_append, List.length_cons] at short
    have first := within.enclosed ',' (texts ++ rest) (by decide) ahead value behind (by omega)
    have others := within.items rest later (by omega)
    simp only [List.append_assoc, List.cons_append]
    rw [readItems, first]
    simp only [skip_token ',' (by decide) behind, others, Option.map_some]

theorem ReadsWithin.nextFields {fs : List (Option String × Source)} {text : List Char} (rest : List Char)
    (spelt : SpellsFields fs text) (short : text.length < fuel + 1) :
    readFields (fuel + 1) (text ++ rest) = some (fs, rest) := by
  cases spelt with
  | last ahead inner value behind =>
    simp only [List.length_append, List.length_cons, List.length_nil] at short
    have first := within.enclosed '\x7d' rest (by decide) inner value behind (by omega)
    simp only [List.append_assoc, List.cons_append, List.nil_append]
    rw [readFields, skip_quoted ahead]
    simp only [readString_escaped, skip_cons (c := ':') (by decide), first, skip_token '\x7d' (by decide) behind]
  | @more k v fields before between text after texts ahead inner value behind later =>
    simp only [List.length_append, List.length_cons] at short
    have first := within.enclosed ',' (texts ++ rest) (by decide) inner value behind (by omega)
    have others := within.fields rest later (by omega)
    simp only [List.append_assoc, List.cons_append]
    rw [readFields, skip_quoted ahead]
    simp only [readString_escaped, skip_cons (c := ':') (by decide), first, skip_token ',' (by decide) behind, others,
      Option.map_some]

end

theorem readsWithin (fuel : Nat) : ReadsWithin fuel := by
  induction fuel with
  | zero =>
    have never {text : List Char} {P : Prop} (short : text.length < 0) : P := absurd short (Nat.not_lt_zero _)
    exact ⟨fun _ _ _ short => never short, fun _ _ short => never short, fun _ _ short => never short⟩
  | succ fuel within => exact ⟨within.nextValue, within.nextItems, within.nextFields⟩

theorem Spells.read? {v : Source} {before text after : List Char} (spelt : Spells v text) (ahead : IsGap before)
    (behind : IsGap after) : Source.read? (String.ofList (before ++ (text ++ after))) = some v := by
  have ends : EndsNumber after := by
    have before : EndsNumber (after ++ []) := endsNumber_gap behind (by simp [EndsNumber])
    rwa [List.append_nil] at before
  have read := (readsWithin (2 * (before ++ (text ++ after)).length + 2)).value ahead spelt ends
    (by simp only [List.length_append]; omega)
  have nothing : skip after = [] := List.dropWhile_eq_nil_iff.mpr behind
  simp only [Source.read?, String.toList_ofList, read, nothing, List.isEmpty_nil, ↓reduceIte]

end Source

namespace Json

open Source (Spells SpellsItems SpellsFields IsGap isGap_nil isGap_blank)

mutual

def source : Json → Source
  | .null => .null
  | .bool b => .bool b
  | .number (.int n) => .number (numberText (.int n))
  | .number (.double x) => if x.isFinite then .number (numberText (.double x)) else .null
  | .string s => .string (some s)
  | .array items => .array (itemSources items)
  | .object fields => .object (fieldSources fields)

def itemSources : List Json → List Source
  | [] => []
  | v :: rest => source v :: itemSources rest

def fieldSources : List (String × Json) → List (Option String × Source)
  | [] => []
  | (k, v) :: rest => (some k, source v) :: fieldSources rest

end

theorem numberText_spells (n : Number) : Spells (source (.number n)) (numberText n) := by
  cases n with
  | int m => exact .number (numberText_isNumber (by simp))
  | double x =>
    by_cases finite : x.isFinite
    · rw [source, if_pos finite]
      exact .number (numberText_isNumber (by rintro y ⟨⟩; exact finite))
    · rw [source, if_neg finite, numberText, if_neg finite]
      exact .null

theorem isGap_newline (depth : Nat) : IsGap (newline depth) := by
  intro c member
  rcases List.mem_cons.mp member with rfl | member
  · decide
  · rw [List.eq_of_mem_replicate member]
    decide

mutual

theorem compactChars_spells : ∀ v : Json, Spells v.source v.compactChars
  | .null => .null
  | .bool b => .bool b
  | .number n => numberText_spells n
  | .string s => .string s
  | .array [] => .noItems
  | .array (v :: rest) => .items (compactItems_spells (v :: rest) (List.cons_ne_nil v rest))
  | .object [] => .noFields
  | .object (field :: rest) => .fields (compactFields_spells (field :: rest) (List.cons_ne_nil field rest))

theorem compactItems_spells : ∀ items : List Json, items ≠ [] →
    SpellsItems (itemSources items) (compactItems items ++ [']'])
  | [], empty => absurd rfl empty
  | [v], _ => .last isGap_nil (compactChars_spells v) isGap_nil
  | v :: w :: rest, _ => by
    have later := compactItems_spells (w :: rest) (List.cons_ne_nil w rest)
    simpa [compactItems, itemSources] using SpellsItems.more isGap_nil (compactChars_spells v) isGap_nil later

theorem compactFields_spells : ∀ fields : List (String × Json), fields ≠ [] →
    SpellsFields (fieldSources fields) (compactFields fields ++ ['\x7d'])
  | [], empty => absurd rfl empty
  | [(k, v)], _ => by
    simpa [compactFields, fieldSources] using
      SpellsFields.last (k := k) isGap_nil isGap_nil (compactChars_spells v) isGap_nil
  | (k, v) :: field :: rest, _ => by
    have later := compactFields_spells (field :: rest) (List.cons_ne_nil field rest)
    simpa [compactFields, fieldSources] using
      SpellsFields.more (k := k) isGap_nil isGap_nil (compactChars_spells v) isGap_nil later

end

mutual

theorem prettyChars_spells : ∀ (depth : Nat) (v : Json), Spells v.source (v.prettyChars depth)
  | _, .null => .null
  | _, .bool b => .bool b
  | _, .number n => numberText_spells n
  | _, .string s => .string s
  | _, .array [] => .noItems
  | depth, .array (v :: rest) => by
    have each := prettyItems_spells (depth + 1) (v :: rest) (List.cons_ne_nil v rest) (isGap_newline depth)
    simpa [prettyChars, source] using Spells.items each
  | _, .object [] => .noFields
  | depth, .object (field :: rest) => by
    have each := prettyFields_spells (depth + 1) (field :: rest) (List.cons_ne_nil field rest) (isGap_newline depth)
    simpa [prettyChars, source] using Spells.fields each

theorem prettyItems_spells : ∀ (depth : Nat) (items : List Json), items ≠ [] → ∀ {gap : List Char}, IsGap gap →
    SpellsItems (itemSources items) (prettyItems depth items ++ (gap ++ [']']))
  | _, [], empty, _, _ => absurd rfl empty
  | depth, [v], _, _, blank => by
    simpa [prettyItems, itemSources] using
      SpellsItems.last (isGap_newline depth) (prettyChars_spells depth v) blank
  | depth, v :: w :: rest, _, _, blank => by
    have later := prettyItems_spells depth (w :: rest) (List.cons_ne_nil w rest) blank
    simpa [prettyItems, itemSources] using
      SpellsItems.more (isGap_newline depth) (prettyChars_spells depth v) isGap_nil later

theorem prettyFields_spells : ∀ (depth : Nat) (fields : List (String × Json)), fields ≠ [] →
    ∀ {gap : List Char}, IsGap gap → SpellsFields (fieldSources fields) (prettyFields depth fields ++ (gap ++ ['\x7d']))
  | _, [], empty, _, _ => absurd rfl empty
  | depth, [(k, v)], _, _, blank => by
    simpa [prettyFields, fieldSources] using
      SpellsFields.last (k := k) (isGap_newline depth) isGap_blank (prettyChars_spells depth v) blank
  | depth, (k, v) :: field :: rest, _, _, blank => by
    have later := prettyFields_spells depth (field :: rest) (List.cons_ne_nil field rest) blank
    simpa [prettyFields, fieldSources] using
      SpellsFields.more (k := k) (isGap_newline depth) isGap_blank (prettyChars_spells depth v) isGap_nil later

end

/-- Compact text is read back. -/
theorem read?_compact (v : Json) : Source.read? v.compact = some v.source := by
  simpa [compact] using (compactChars_spells v).read? isGap_nil isGap_nil

theorem read?_pretty (v : Json) : Source.read? v.pretty = some v.source := by
  simpa [pretty] using (prettyChars_spells 0 v).read? isGap_nil isGap_nil

theorem read?_prettyLine (v : Json) : Source.read? (v.pretty ++ "\n") = some v.source := by
  have line : IsGap ['\n'] := by simp [IsGap, Source.isSpace]
  have read := (prettyChars_spells 0 v).read? isGap_nil line
  rwa [List.nil_append, String.ofList_append] at read

/-- A value without doubles, its whole numbers within 64 bits, no object with a key twice, nested at most so deep. -/
inductive Plain : Nat → Json → Prop
  | null {depth : Nat} : Plain depth .null
  | bool {depth : Nat} (b : Bool) : Plain depth (.bool b)
  | int {depth : Nat} {n : Int} (above : -0x8000000000000000 ≤ n) (below : n < 0x10000000000000000) :
    Plain depth (.number (.int n))
  | string {depth : Nat} (s : String) : Plain depth (.string s)
  | array {depth : Nat} {items : List Json} (each : ∀ v ∈ items, Plain depth v) : Plain (depth + 1) (.array items)
  | object {depth : Nat} {fields : List (String × Json)} (distinct : (fields.map Prod.fst).Nodup)
    (each : ∀ field ∈ fields, Plain depth field.2) : Plain (depth + 1) (.object fields)

theorem itemsToJson?_back {depth : Nat} {items : List Json}
    (each : ∀ v ∈ items, v.source.toJson? depth = some v) :
    Source.itemsToJson? depth (itemSources items) = some items := by
  induction items with
  | nil => rfl
  | cons v rest ih =>
    rw [itemSources, Source.itemsToJson?, each v List.mem_cons_self,
      ih fun u member => each u (List.mem_cons_of_mem v member)]
    rfl

theorem fieldsToJson?_back {depth : Nat} {fields : List (String × Json)}
    (each : ∀ field ∈ fields, field.2.source.toJson? depth = some field.2) :
    Source.fieldsToJson? depth (fieldSources fields) = some fields := by
  induction fields with
  | nil => rfl
  | cons field rest ih =>
    obtain ⟨k, v⟩ := field
    have here : v.source.toJson? depth = some v := each (k, v) List.mem_cons_self
    rw [fieldSources, Source.fieldsToJson?, here, ih fun other member => each other (List.mem_cons_of_mem _ member)]
    rfl

theorem Plain.toJson?_source {depth : Nat} {v : Json} (plain : Plain depth v) : v.source.toJson? depth = some v := by
  induction plain with
  | null => simp [source, Source.toJson?]
  | bool b => simp [source, Source.toJson?]
  | int above below => simp [source, Source.toJson?, numberText, Source.numberValue?_intText above below]
  | string s => simp [source, Source.toJson?]
  | array each ih => simp [source, Source.toJson?, itemsToJson?_back ih]
  | object distinct each ih =>
    simp [source, Source.toJson?, fieldsToJson?_back ih, Fields.ofEntries_of_distinct distinct]

section

variable {v : Json} (plain : Plain Source.maxDepth v)

include plain

theorem Plain.parse?_compact : parse? v.compact = some v := by
  rw [parse?, read?_compact]
  exact plain.toJson?_source

theorem Plain.parse?_pretty : parse? v.pretty = some v := by
  rw [parse?, read?_pretty]
  exact plain.toJson?_source

theorem Plain.parse?_prettyLine : parse? (v.pretty ++ "\n") = some v := by
  rw [parse?, read?_prettyLine]
  exact plain.toJson?_source

end

end Json

end Provision
