import Provision.Proofs.Conjunction

namespace Provision

namespace Source

theorem not_digit_of_blank {c : Char} (blank : Text.isBlank c = true) : isDigit c = false := by
  by_contra digit
  have bounds : 48 ≤ c.toNat ∧ c.toNat ≤ 57 := by
    simpa [isDigit, Char.le_def, UInt32.le_iff_toNat_le] using digit
  simp only [Text.isBlank, Bool.or_eq_true, Bool.and_eq_true, decide_eq_true_eq, beq_iff_eq] at blank
  omega

theorem readValue_blank {c : Char} (blank : Text.isBlank c = true) (other : isSpace c = false) (fuel : Nat)
    (cs : List Char) : readValue fuel (c :: cs) = none := by
  cases fuel with
  | zero => rfl
  | succ fuel =>
    have noNumber : readNumber (c :: cs) = none := by
      have digit := not_digit_of_blank blank
      unfold readNumber
      split
      · rename_i same
        obtain rfl := (List.cons.inj same).1
        exact absurd blank (by decide)
      · have noWhole : readWhole (c :: cs) = none := by
          unfold readWhole
          split
          · rename_i same
            obtain rfl := (List.cons.inj same).1
            exact absurd blank (by decide)
          · simp [readDigits, digit]
        rw [readUnsigned, noWhole]
        rfl
    rw [readValue, skip_cons other]
    split
    case h_7 => rw [noNumber]; rfl
    all_goals
      rename_i same
      obtain rfl := (List.cons.inj same).1
      exact absurd blank (by decide)

theorem readValue_fuel {fuel : Nat} {cs r : List Char} {src : Source} (noArray : ∀ items, src ≠ .array items)
    (noObject : ∀ fields, src ≠ .object fields) (read : readValue (fuel + 1) cs = some (src, r)) (more : Nat) :
    readValue (more + 1) cs = some (src, r) := by
  unfold readValue at read ⊢
  split at read
  case h_5 =>
    split at read
    · cases read
      exact absurd rfl (noArray _)
    · obtain ⟨⟨items, left⟩, -, last⟩ := Option.map_eq_some_iff.mp read
      cases last
      exact absurd rfl (noArray _)
  case h_6 =>
    split at read
    · cases read
      exact absurd rfl (noObject _)
    · obtain ⟨⟨fields, left⟩, -, last⟩ := Option.map_eq_some_iff.mp read
      cases last
      exact absurd rfl (noObject _)
  all_goals exact read

theorem read?_scalar_iff {s : String} {src : Source} (noArray : ∀ items, src ≠ .array items)
    (noObject : ∀ fields, src ≠ .object fields) :
    read? s = some src ↔ ∃ r, readValue 1 s.toList = some (src, r) ∧ IsGap r := by
  unfold read?
  dsimp only
  constructor
  · intro read
    split at read
    · rename_i found r whole
      split at read
      · rename_i blank
        cases read
        exact ⟨r, readValue_fuel noArray noObject whole 0, List.dropWhile_eq_nil_iff.mp (List.isEmpty_iff.mp blank)⟩
      · cases read
    · cases read
  · rintro ⟨r, read, blank⟩
    have rest : (skip r).isEmpty = true := List.isEmpty_iff.mpr (List.dropWhile_eq_nil_iff.mpr blank)
    rw [readValue_fuel noArray noObject read (2 * s.toList.length + 1)]
    simp only [rest, ↓reduceIte]

theorem scalar_source {src : Source} {depth : Nat} {v : Json} (given : src.toJson? depth = some v)
    (scalar : v.isScalar = true) : (∀ items, src ≠ .array items) ∧ ∀ fields, src ≠ .object fields := by
  constructor
  · rintro items rfl
    cases depth with
    | zero => cases given
    | succ depth =>
      obtain ⟨values, -, rfl⟩ := Option.map_eq_some_iff.mp given
      cases scalar
  · rintro fields rfl
    cases depth with
    | zero => cases given
    | succ depth =>
      obtain ⟨values, -, rfl⟩ := Option.map_eq_some_iff.mp given
      cases scalar

theorem parse?_gap {gap cs : List Char} {v : Json} (blank : IsGap gap) (scalar : v.isScalar = true) :
    Json.parse? (String.ofList (gap ++ cs)) = some v ↔ Json.parse? (String.ofList cs) = some v := by
  have same : readValue 1 (gap ++ cs) = readValue 1 cs := by
    rw [← readValue_skip 1 (gap ++ cs), skip_gap blank, readValue_skip]
  unfold Json.parse?
  rw [Option.bind_eq_some_iff, Option.bind_eq_some_iff]
  refine exists_congr fun src => and_congr_left fun given => ?_
  obtain ⟨noArray, noObject⟩ := scalar_source given scalar
  rw [read?_scalar_iff noArray noObject, read?_scalar_iff noArray noObject, String.toList_ofList, String.toList_ofList,
    same]

/-- Other blanks do. -/
theorem parse?_blank {blanks cs : List Char} {v : Json} (blank : ∀ c ∈ blanks, Text.isBlank c = true)
    (other : ¬ IsGap blanks) (scalar : v.isScalar = true) : Json.parse? (String.ofList (blanks ++ cs)) ≠ some v := by
  intro parsed
  obtain ⟨src, read, given⟩ := Option.bind_eq_some_iff.mp parsed
  obtain ⟨noArray, noObject⟩ := scalar_source given scalar
  obtain ⟨r, read, -⟩ := (read?_scalar_iff noArray noObject).mp read
  have left : skip blanks ≠ [] := mt List.dropWhile_eq_nil_iff.mp other
  obtain ⟨c, rest, first⟩ := List.exists_cons_of_ne_nil left
  have whole : blanks = blanks.takeWhile isSpace ++ c :: rest := by
    rw [← first]
    exact List.takeWhile_append_dropWhile.symm
  have solid : isSpace c = false := by
    have head : isSpace ((skip blanks).head left) = false := List.head_dropWhile_not isSpace left
    simpa only [first, List.head_cons] using head
  have behind : skip (blanks ++ cs) = c :: (rest ++ cs) := by
    rw [whole, List.append_assoc, List.cons_append]
    exact skip_token c solid (fun d => List.mem_takeWhile_imp) _
  rw [String.toList_ofList, ← readValue_skip, behind,
    readValue_blank (blank c (whole ▸ by simp)) solid] at read
  cases read

end Source

namespace Filter

open Text (isBlank trimChars trimStartChars trimEndChars splitAllChars)

def ReadsAsScalar (raw : String) : Prop := ∃ v, Json.parse? raw = some v ∧ v.isScalar = true

/-- Blanks in front of a value are part of it unless it is a scalar and they are JSON's. -/
theorem termValue_after {after v : List Char} (blank : ∀ c ∈ after, isBlank c = true) :
    termValue (String.ofList (after ++ v)) = termValue (String.ofList v) ↔
      after = [] ∨ ReadsAsScalar (String.ofList v) ∧ Source.IsGap after := by
  constructor
  · intro same
    by_cases none : after = []
    · exact .inl none
    refine .inr ?_
    rcases termValue_cases (String.ofList (after ++ v)) with plain | ⟨w, parsed, scalar, -⟩
    · -- The plain value is the longer text, which the shorter one does not give.
      have shorter := termValue_length (same.symm.trans plain)
      rw [String.toList_ofList, String.toList_ofList, List.length_append] at shorter
      have filled := List.length_pos_iff.mpr none
      omega
    · by_cases gap : Source.IsGap after
      · exact ⟨⟨w, (Source.parse?_gap gap scalar).mp parsed, scalar⟩, gap⟩
      · exact absurd parsed (Source.parse?_blank blank gap scalar)
  · rintro (rfl | ⟨⟨w, parsed, scalar⟩, gap⟩)
    · rfl
    · have spaced := (Source.parse?_gap gap scalar).mpr parsed
      unfold termValue
      rw [parsed, spaced]
      exact (if_pos scalar).trans (if_pos scalar).symm

variable {cs p z : List Char} {ps qs zs : List (List Char)} {ts us : List Term}

def conjoin (zs : List (List Char)) : List Char := conj.intercalate zs

theorem conjoin_cons (z w : List Char) (zs : List (List Char)) :
    conjoin (z :: w :: zs) = z ++ conj ++ conjoin (w :: zs) := by
  simp [conjoin, List.intercalate]

theorem conjoin_single (z : List Char) : conjoin [z] = z := by simp [conjoin, List.intercalate]

theorem conjoin_head (zs : List (List Char)) : ∃ x, ∀ z, conjoin (z :: zs) = z ++ x := by
  cases zs with
  | nil => exact ⟨[], fun z => by rw [conjoin_single, List.append_nil]⟩
  | cons w zs => exact ⟨conj ++ conjoin (w :: zs), fun z => by rw [conjoin_cons, List.append_assoc]⟩

theorem conjoin_last (zs : List (List Char)) : ∃ x, ∀ z, conjoin (zs ++ [z]) = x ++ z := by
  induction zs with
  | nil => exact ⟨[], fun z => conjoin_single z⟩
  | cons w zs ih =>
    obtain ⟨x, goesOn⟩ := ih
    cases zs with
    | nil => exact ⟨w ++ conj, fun z => by rw [List.cons_append, List.nil_append, conjoin_cons, conjoin_single]⟩
    | cons v zs =>
      refine ⟨w ++ conj ++ x, fun z => ?_⟩
      rw [List.cons_append, List.cons_append, conjoin_cons, ← List.cons_append, goesOn, ← List.append_assoc]

theorem Cut.length_ge (cut : Cut (p ++ conjoin zs) qs) : zs.length ≤ qs.length := by
  induction zs generalizing p qs with
  | nil => exact Nat.zero_le _
  | cons z zs ih =>
    cases zs with
    | nil => exact List.length_pos_iff.mpr cut.ne_nil
    | cons w zs =>
      rw [conjoin_cons, ← List.append_assoc, ← List.append_assoc] at cut
      obtain ⟨init, rest, rfl, some, behind⟩ := cut.seam
      have more : (w :: zs).length ≤ rest.length := by
        rcases behind with behind | behind
        · exact ih (p := []) behind
        · exact ih behind
      have filled := List.length_pos_iff.mpr some
      simp only [List.length_cons, List.length_append] at more ⊢
      omega

theorem termsOf_cons_ok : termsOf (p :: ps) = .ok ts ↔
    ∃ t more, parseTerm (String.ofList p) = .ok t ∧ termsOf ps = .ok more ∧ ts = t :: more := by
  rw [termsOf_eq_ok, List.forall₂_cons_left_iff]
  simp only [termsOf_eq_ok]

theorem term_of_colon {t : Term} {u v : List Char} (none : ':' ∉ u)
    (parsed : parseTerm (String.ofList (u ++ ':' :: v)) = .ok t) :
    t = ⟨Text.trim (String.ofList u), termValue (String.ofList (trimEndChars v))⟩ := by
  rw [parseTerm_colon none] at parsed
  exact (Except.ok.inj parsed).symm

theorem path_misled {t u : Term} {x : List Char} (own : parseTerm (String.ofList z) = .ok t)
    (all : termsOf (splitAllChars conj (['A', 'N', 'D', ' '] ++ (z ++ x))) = .ok (u :: us)) : u.path ≠ t.path := by
  obtain ⟨a, b, rfl, none⟩ := List.eq_append_cons_of_mem (colon_of_parseTerm own)
  have whole : ['A', 'N', 'D', ' '] ++ (a ++ ':' :: b ++ x) = (['A', 'N', 'D', ' '] ++ a) ++ ':' :: (b ++ x) := by simp
  rw [whole] at all
  have longer := first_path all (by simp [none])
  have path := congrArg Term.path (term_of_colon none own)
  intro same
  have counts := congrArg (fun s : String => s.toList.count 'A') ((longer.symm.trans same).trans path)
  dsimp only at counts
  rw [Text.trim, Text.trim, String.toList_ofList, String.toList_ofList, String.toList_ofList, String.toList_ofList,
    count_trim (by decide), count_trim (by decide), List.count_append] at counts
  have one : ['A', 'N', 'D', ' '].count 'A' = 1 := by decide
  omega

/-- A joined text that asks for the paths of its texts, one term each, is cut at the seams. -/
theorem Cut.aligned (cut : Cut (conjoin zs) qs) (filled : zs ≠ []) (own : termsOf zs = .ok ts)
    (all : termsOf qs = .ok us) (paths : us.map Term.path = ts.map Term.path) : qs = zs := by
  induction zs generalizing qs ts us with
  | nil => exact absurd rfl filled
  | cons z zs ih =>
    have lengths : qs.length = (z :: zs).length := by
      rw [← termsOf_length all, ← termsOf_length own]
      simpa using congrArg List.length paths
    cases zs with
    | nil =>
      rw [conjoin_single] at cut
      obtain ⟨q, rfl⟩ := List.length_eq_one_iff.mp lengths
      rw [cut.single]
    | cons w zs =>
      rw [conjoin_cons] at cut
      generalize text : z ++ conj ++ conjoin (w :: zs) = cs at cut
      cases cut with
      | last => simp at lengths
      | @part p r ps clear later =>
        obtain ⟨t, ts, -, rest, rfl⟩ := termsOf_cons_ok.mp own
        obtain ⟨u, us, -, others, rfl⟩ := termsOf_cons_ok.mp all
        obtain ⟨-, behind⟩ := List.cons.inj paths
        -- The first place to cut is the seam, a blank before it, or inside the first text.
        rcases clear_first clear text.symm with ⟨rfl, rfl⟩ | ⟨-, rfl⟩ | ⟨y, -, rfl⟩
        · rw [ih later (List.cons_ne_nil _ _) rest others behind]
        · obtain ⟨t, ts, parsed, -, rfl⟩ := termsOf_cons_ok.mp rest
          obtain ⟨u, us, rfl⟩ : ∃ u us', us = u :: us' := by
            cases us with
            | nil => cases behind
            | cons u us => exact ⟨u, us, rfl⟩
          obtain ⟨x, goesOn⟩ := conjoin_head zs
          rw [goesOn] at later
          rw [← later.split] at others
          exact absurd (List.cons.inj behind).1 (path_misled parsed others)
        · -- A place to cut inside the first text leaves too many parts.
          have many : Cut (conjoin (y :: w :: zs)) ps := by
            rw [conjoin_cons]
            exact later
          have more : (y :: w :: zs).length ≤ ps.length := Cut.length_ge (p := []) many
          simp only [List.length_cons] at lengths more
          omega

theorem trimChars_trimStart (cs : List Char) : trimChars (trimStartChars cs) = trimChars cs := by
  have again : trimStartChars (trimStartChars cs) = trimStartChars cs := List.dropWhile_idempotent _ cs
  rw [trimChars, again, trimChars]

theorem trimChars_trimEnd {u v : List Char} : trimChars (trimEndChars (u ++ ':' :: v)) = trimChars (u ++ ':' :: v) := by
  have solid : isBlank ':' = false := by decide
  rw [trimEnd_solid solid, trimChars, trimChars, trimStart_solid solid, trimStart_solid solid, trimEnd_solid solid,
    trimEnd_solid solid, Text.trimEndChars_idem]

theorem trim_conjoin (filled : zs ≠ []) (colons : ∀ z ∈ zs, ':' ∈ z) :
    ∃ ws, trimChars (conjoin zs) = conjoin ws ∧ ws.map trimChars = zs.map trimChars := by
  have solid : isBlank ':' = false := by decide
  obtain ⟨z, rest, rfl⟩ := List.exists_cons_of_ne_nil filled
  obtain ⟨x, goesOn⟩ := conjoin_head rest
  have start : trimStartChars (conjoin (z :: rest)) = conjoin (trimStartChars z :: rest) := by
    obtain ⟨u, v, rfl⟩ := List.append_of_mem (colons z List.mem_cons_self)
    rw [goesOn, goesOn, List.append_assoc, List.cons_append, trimStart_solid solid, trimStart_solid solid,
      List.append_assoc, List.cons_append]
  have kept : ∀ w ∈ trimStartChars z :: rest, ':' ∈ w := by
    intro w member
    rcases List.mem_cons.mp member with rfl | member
    · obtain ⟨u, v, rfl⟩ := List.append_of_mem (colons z List.mem_cons_self)
      simp [trimStart_solid solid]
    · exact colons w (List.mem_cons_of_mem _ member)
  rcases (trimStartChars z :: rest).eq_nil_or_concat with none | ⟨init, w, parts⟩
  · exact absurd none (List.cons_ne_nil _ _)
  rw [List.concat_eq_append] at parts
  rw [parts] at start kept
  obtain ⟨y, ends⟩ := conjoin_last init
  obtain ⟨u, v, rfl⟩ := List.append_of_mem (kept w (by simp))
  refine ⟨init ++ [trimEndChars (u ++ ':' :: v)], ?_, ?_⟩
  · rw [trimChars, start, ends, ends, ← List.append_assoc, trimEnd_solid solid, trimEnd_solid solid,
      List.append_assoc]
  · rw [List.map_append, List.map_singleton, trimChars_trimEnd, ← List.map_singleton, ← List.map_append, ← parts,
      List.map_cons, trimChars_trimStart, List.map_cons]

def parts (query : String) : List String := (Text.splitAll " AND " (Text.trim query)).map Text.trim

theorem parts_eq (query : String) :
    parts query = ((splitAllChars conj (trimChars query.toList)).map trimChars).map String.ofList := by
  unfold parts Text.splitAll
  rw [conj_toList, Text.trim, String.toList_ofList, List.map_map, List.map_map]
  exact List.map_congr_left fun p _ => by simp [Text.trim]

theorem parseTerm_text (s : String) : parseTerm (Text.trim s) = parseTerm s := by
  rw [Text.trim, parseTerm_trim, String.ofList_toList]

theorem asked_parts (query : String) : asked query = (parts query).mapM parseTerm := by
  rw [asked, ← termsOf_trim, termsOf, parts_eq]
  simp only [List.mapM_map, Function.comp_def]

theorem parts_ne_nil (query : String) : parts query ≠ [] := by
  rw [parts_eq]
  simpa using (cut_split (trimChars query.toList)).ne_nil

theorem parts_asksNothing {query : String} (nothing : AsksNothing query) : parts query = [Text.trim query] := by
  unfold parts
  rcases nothing with same | same <;>
  · rw [same]
    decide +kernel

instance (cs : List Char) : Decidable (Blank cs) := List.decidableBAll (fun c => isBlank c = true) cs

structure SpacedTerm where
  path : String
  value : String
  lead : String
  tail : String
  after : String
  last : String
  keyless : ':' ∉ path.toList
  lead_blank : Blank lead.toList
  tail_blank : Blank tail.toList
  after_blank : Blank after.toList
  last_blank : Blank last.toList

def queryOf (terms : List String) : String := Text.joinWith " AND " terms

theorem queryOf_toList (terms : List String) : (queryOf terms).toList = conjoin (terms.map String.toList) := by
  rw [queryOf, Text.joinWith, String.toList_intercalate, conj_toList, conjoin]

theorem queryOf_single (term : String) : queryOf [term] = term := by
  rw [← String.toList_inj, queryOf_toList, List.map_singleton, conjoin_single]

namespace SpacedTerm

variable (t : SpacedTerm)

def bare : String := t.path ++ ":" ++ t.value

def spaced : String := t.lead ++ t.path ++ t.tail ++ ":" ++ t.after ++ t.value ++ t.last

/-- The blanks behind the colon are not taken for a part of the value. -/
def Tolerates : Prop :=
  t.after = "" ∨ Text.trimEnd t.value = "" ∨ ReadsAsScalar (Text.trimEnd t.value) ∧ Source.IsGap t.after.toList

theorem bare_eq : t.bare = String.ofList (t.path.toList ++ ':' :: t.value.toList) := by
  rw [← String.toList_inj, bare]
  simp [colon_toList]

theorem spaced_eq : t.spaced = String.ofList ((t.lead.toList ++ t.path.toList ++ t.tail.toList) ++
    ':' :: (t.after.toList ++ t.value.toList ++ t.last.toList)) := by
  rw [← String.toList_inj, spaced]
  simp [colon_toList]

theorem spaced_keyless : ':' ∉ t.lead.toList ++ t.path.toList ++ t.tail.toList := by
  simp [not_blank_of_colon t.lead_blank, not_blank_of_colon t.tail_blank, t.keyless]

def bareTerm : Term := ⟨Text.trim t.path, termValue (Text.trimEnd t.value)⟩

def spacedTerm : Term :=
  ⟨Text.trim t.path,
    termValue (String.ofList (trimEndChars (t.after.toList ++ t.value.toList ++ t.last.toList)))⟩

theorem parse_bare : parseTerm t.bare = .ok t.bareTerm := by
  rw [bare_eq, parseTerm_colon t.keyless, bareTerm, Text.trimEnd, String.ofList_toList]

theorem parse_spaced : parseTerm t.spaced = .ok t.spacedTerm := by
  have path : trimChars (t.lead.toList ++ t.path.toList ++ t.tail.toList) = trimChars t.path.toList := by
    rw [List.append_assoc]
    exact trim_pad t.lead_blank t.tail_blank _
  rw [spaced_eq, parseTerm_colon t.spaced_keyless, spacedTerm, Text.trim, String.toList_ofList, path, Text.trim]

end SpacedTerm

theorem trimEnd_after {after : List Char} (blank : Blank after) (v : List Char) :
    trimEndChars (after ++ v) = if trimEndChars v = [] then [] else after ++ trimEndChars v := by
  have turned : Blank after.reverse := fun c member => blank c (List.mem_reverse.mp member)
  unfold trimEndChars
  rw [List.reverse_append, List.dropWhile_append]
  by_cases none : v.reverse.dropWhile isBlank = []
  · rw [if_pos (by simpa using none), if_pos (by simpa using none), List.dropWhile_eq_nil_iff.mpr turned,
      List.reverse_nil]
  · rw [if_neg (by simpa using none), if_neg (by simpa using none), List.reverse_append, List.reverse_reverse]

theorem trimStart_before {tail : List Char} (blank : Blank tail) (u : List Char) :
    trimStartChars (u ++ tail) = if trimStartChars u = [] then [] else trimStartChars u ++ tail := by
  unfold trimStartChars
  rw [List.dropWhile_append]
  by_cases none : u.dropWhile isBlank = []
  · rw [if_pos (by simpa using none), if_pos none, List.dropWhile_eq_nil_iff.mpr blank]
  · rw [if_neg (by simpa using none), if_neg none]

theorem SpacedTerm.spacedTerm_eq_iff (t : SpacedTerm) : t.spacedTerm = t.bareTerm ↔ t.Tolerates := by
  have value : t.spacedTerm = t.bareTerm ↔
      termValue (String.ofList (trimEndChars (t.after.toList ++ t.value.toList))) = termValue (Text.trimEnd t.value) := by
    rw [spacedTerm, trimEnd_pad t.last_blank, bareTerm, Term.mk.injEq, and_iff_right rfl]
  have none : t.after = "" ↔ t.after.toList = [] := by rw [← String.toList_inj, String.toList_empty]
  have blank : Text.trimEnd t.value = "" ↔ trimEndChars t.value.toList = [] := by
    rw [← String.toList_inj, Text.trimEnd, String.toList_ofList, String.toList_empty]
  rw [value, trimEnd_after t.after_blank, Tolerates, none, blank]
  by_cases empty : trimEndChars t.value.toList = []
  · simp [empty, Text.trimEnd]
  · rw [if_neg empty, Text.trimEnd, termValue_after t.after_blank]
    simp [empty]

theorem asksNothing_colon {u v : List Char} (none : ':' ∉ u) :
    AsksNothing (String.ofList (u ++ ':' :: v)) ↔ trimStartChars u = ['*'] ∧ trimEndChars v = ['*'] := by
  have solid : isBlank ':' = false := by decide
  have star : "*:*".toList = ['*'] ++ ':' :: ['*'] := by decide +kernel
  have shorter : ':' ∉ trimStartChars u := fun member => none ((List.dropWhile_suffix isBlank).subset member)
  rw [AsksNothing, ← String.toList_inj, ← String.toList_inj, Text.trim, String.toList_ofList, String.toList_ofList,
    star, trimChars, trimStart_solid solid, trimEnd_solid solid]
  constructor
  · rintro (same | same)
    · simp at same
    · exact colon_unique shorter (by decide) same
  · rintro ⟨first, second⟩
    rw [first, second]
    exact .inr rfl

theorem SpacedTerm.spaced_asksNothing (t : SpacedTerm) :
    AsksNothing t.spaced ↔ AsksNothing t.bare ∧ t.tail = "" ∧ t.after = "" := by
  have noTail : t.tail = "" ↔ t.tail.toList = [] := by rw [← String.toList_inj, String.toList_empty]
  have noAfter : t.after = "" ↔ t.after.toList = [] := by rw [← String.toList_inj, String.toList_empty]
  have lead : trimStartChars (t.lead.toList ++ t.path.toList ++ t.tail.toList) =
      trimStartChars (t.path.toList ++ t.tail.toList) := by
    rw [List.append_assoc]
    exact List.dropWhile_append_of_pos t.lead_blank
  have path : trimStartChars (t.path.toList ++ t.tail.toList) = ['*'] ↔
      trimStartChars t.path.toList = ['*'] ∧ t.tail.toList = [] := by
    rw [trimStart_before t.tail_blank]
    split
    · rename_i none
      simp [none]
    · rename_i some
      rw [List.append_eq_singleton_iff]
      simp [some]
  have value : trimEndChars (t.after.toList ++ t.value.toList) = ['*'] ↔
      trimEndChars t.value.toList = ['*'] ∧ t.after.toList = [] := by
    rw [trimEnd_after t.after_blank]
    split
    · rename_i none
      simp [none]
    · rename_i some
      rw [List.append_eq_singleton_iff]
      simp [some, and_comm]
  rw [spaced_eq, bare_eq, asksNothing_colon t.spaced_keyless, asksNothing_colon t.keyless, trimEnd_pad t.last_blank,
    lead, path, value, noTail, noAfter, and_and_and_comm]

theorem SpacedTerm.after_eq {t : SpacedTerm} (tolerates : t.Tolerates) (nothing : AsksNothing t.bare) :
    t.after = "" := by
  have star : Text.trimEnd t.value = "*" := by
    rw [bare_eq, asksNothing_colon t.keyless] at nothing
    rw [Text.trimEnd, nothing.2]
  rcases tolerates with none | blank | ⟨⟨v, parsed, -⟩, -⟩
  · exact none
  · rw [star] at blank
    exact absurd blank (by decide)
  · rw [star] at parsed
    have unread : (Json.parse? "*").isNone = true := by decide +kernel
    rw [parsed] at unread
    cases unread

variable {terms : List SpacedTerm}

theorem queryOf_terms (text : SpacedTerm → String) (term : SpacedTerm → Term)
    (reads : ∀ t, parseTerm (text t) = .ok (term t)) {query : String}
    (cut : parts query = terms.map fun t => Text.trim (text t)) : asked query = .ok (terms.map term) := by
  rw [asked_parts, cut, List.mapM_map]
  simp only [Function.comp_def, parseTerm_text, reads]
  exact List.mapM_pure

theorem single_of_asksNothing {text : SpacedTerm → String} {query : String} (nothing : AsksNothing query)
    (cut : parts query = terms.map fun t => Text.trim (text t)) : ∃ t, terms = [t] := by
  rw [parts_asksNothing nothing] at cut
  obtain ⟨t, single, -⟩ := List.map_eq_singleton_iff.mp cut.symm
  exact ⟨t, single⟩

theorem parts_spaced (filled : terms ≠ []) {us : List Term} (all : asked (queryOf (terms.map (·.spaced))) = .ok us)
    (paths : us.map Term.path = terms.map fun t => Text.trim t.path) :
    parts (queryOf (terms.map (·.spaced))) = terms.map fun t => Text.trim t.spaced := by
  have colons : ∀ z ∈ (terms.map (·.spaced)).map String.toList, ':' ∈ z := by
    rw [List.map_map, List.forall_mem_map]
    intro t _
    rw [Function.comp_apply, t.spaced_eq, String.toList_ofList]
    simp
  obtain ⟨ws, whole, trimmed⟩ := trim_conjoin (by simpa using filled) colons
  have own : termsOf ws = .ok (terms.map (·.spacedTerm)) := by
    rw [← termsOf_trim, trimmed, termsOf_trim, termsOf, List.mapM_map, List.mapM_map]
    simp only [Function.comp_def, String.ofList_toList, SpacedTerm.parse_spaced]
    exact List.mapM_pure
  have some : ws ≠ [] := by
    rintro rfl
    simp [filled] at trimmed
  have cut := cut_split (conjoin ws)
  rw [asked, queryOf_toList, whole] at all
  have same := cut.aligned some own all (by rw [paths, List.map_map]; rfl)
  rw [parts_eq, queryOf_toList, whole, same, trimmed, List.map_map, List.map_map, List.map_map]
  rfl

/-- Blanks around the parts of the terms of a text do not matter exactly where they make no further place to cut, each
value tolerates those behind its colon, and there are none in front of the colon of `*:*`. -/
theorem parse_spaced_iff
    (cut : parts (queryOf (terms.map (·.bare))) = terms.map fun t => Text.trim t.bare) :
    parse (queryOf (terms.map (·.spaced))) = parse (queryOf (terms.map (·.bare))) ↔
      parts (queryOf (terms.map (·.spaced))) = (terms.map fun t => Text.trim t.spaced) ∧
        (∀ t ∈ terms, t.Tolerates) ∧ (AsksNothing (queryOf (terms.map (·.bare))) → ∀ t ∈ terms, t.tail = "") := by
  have filled : terms ≠ [] := by
    rintro rfl
    exact parts_ne_nil _ cut
  have own := queryOf_terms _ _ SpacedTerm.parse_bare cut
  constructor
  · intro same
    by_cases nothing : AsksNothing (queryOf (terms.map (·.bare)))
    · -- What asks for nothing is one term, which has to ask for nothing with its blanks too.
      obtain ⟨t, rfl⟩ := single_of_asksNothing nothing cut
      simp only [List.map_singleton, queryOf_single] at same nothing ⊢
      rw [parse_eq t.bare, if_pos nothing] at same
      have spaced : AsksNothing t.spaced := by
        rcases parse_cases same with ⟨spaced, -⟩ | ⟨-, all⟩
        · exact spaced
        · exact absurd rfl (terms_ne_nil all)
      obtain ⟨-, tail, after⟩ := t.spaced_asksNothing.mp spaced
      refine ⟨parts_asksNothing spaced, ?_, ?_⟩
      · simp [SpacedTerm.Tolerates, after]
      · simp [tail]
    · rw [parse_eq (queryOf (terms.map (·.bare))), if_neg nothing, own] at same
      rcases parse_cases same with ⟨-, none⟩ | ⟨-, all⟩
      · simp [filled] at none
      -- Both ask for the same paths, so there is no further place to cut.
      have split := parts_spaced filled all (by rw [List.map_map]; rfl)
      have again := queryOf_terms _ _ SpacedTerm.parse_spaced split
      have each := Except.ok.inj (again.symm.trans all)
      refine ⟨split, fun t member => ?_, fun asks => absurd asks nothing⟩
      exact t.spacedTerm_eq_iff.mp (List.map_inj_left.mp each t member)
  · rintro ⟨split, tolerates, star⟩
    have again := queryOf_terms _ _ SpacedTerm.parse_spaced split
    have each : terms.map (·.spacedTerm) = terms.map (·.bareTerm) :=
      List.map_congr_left fun t member => t.spacedTerm_eq_iff.mpr (tolerates t member)
    have nothing : AsksNothing (queryOf (terms.map (·.spaced))) ↔ AsksNothing (queryOf (terms.map (·.bare))) := by
      constructor
      · intro spaced
        obtain ⟨t, rfl⟩ := single_of_asksNothing spaced split
        simp only [List.map_singleton, queryOf_single] at spaced ⊢
        exact (t.spaced_asksNothing.mp spaced).1
      · intro bare
        obtain ⟨t, rfl⟩ := single_of_asksNothing bare cut
        have tail := star bare t List.mem_cons_self
        simp only [List.map_singleton, queryOf_single] at bare ⊢
        exact t.spaced_asksNothing.mpr ⟨bare, tail, SpacedTerm.after_eq (tolerates t List.mem_cons_self) bare⟩
    rw [parse_eq, parse_eq, again, own, each]
    simp only [nothing]

def spacedSearch : List SpacedTerm :=
  [⟨"shortname", "site1", " ", " ", "", "", by decide +kernel, by decide +kernel, by decide +kernel,
      by decide +kernel, by decide +kernel⟩,
    ⟨"deploy", "true", "", " ", " ", " ", by decide +kernel, by decide +kernel, by decide +kernel,
      by decide +kernel, by decide +kernel⟩]

theorem parse_spaced_iff_search :
    parts (queryOf (spacedSearch.map (·.bare))) = (spacedSearch.map fun t => Text.trim t.bare) ∧
      parse (queryOf (spacedSearch.map (·.spaced))) = parse (queryOf (spacedSearch.map (·.bare))) := by
  have cut : parts (queryOf (spacedSearch.map (·.bare))) = spacedSearch.map fun t => Text.trim t.bare := by
    decide +kernel
  refine ⟨cut, (parse_spaced_iff cut).mpr ⟨by decide +kernel, ?_, fun nothing => ?_⟩⟩
  · have scalar : (Json.parse? (Text.trimEnd "true")).any Json.isScalar = true := by decide +kernel
    have flag : ReadsAsScalar (Text.trimEnd "true") := (Option.any_eq_true _ _).mp scalar
    have blank : " ".toList = [' '] := by decide +kernel
    have gap : Source.IsGap " ".toList := blank ▸ Source.isGap_blank
    simp only [spacedSearch, List.forall_mem_cons]
    exact ⟨.inl rfl, .inr (.inr ⟨flag, gap⟩), by simp⟩
  · exact absurd nothing (by decide +kernel)

def siteOne : Record := ⟨[("shortname", .string "site1")]⟩

/-- A blank behind the colon becomes part of the name that is searched for. -/
theorem spaced_value_differs :
    ∃ f g, parse "shortname:site1" = .ok f ∧ parse "shortname: site1" = .ok g ∧ f.holds siteOne = true ∧
      g.holds siteOne = false := by
  have facts : ((parse "shortname:site1").toOption.map (·.holds siteOne),
      (parse "shortname: site1").toOption.map (·.holds siteOne)) = (some true, some false) := by decide +kernel
  obtain ⟨bare, spaced⟩ := Prod.mk.inj facts
  obtain ⟨f, bare, found⟩ := Option.map_eq_some_iff.mp bare
  obtain ⟨g, spaced, missed⟩ := Option.map_eq_some_iff.mp spaced
  rw [toOption_eq_some] at bare spaced
  exact ⟨f, g, bare, spaced, found, missed⟩

end Filter

end Provision
