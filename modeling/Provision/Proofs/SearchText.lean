import Provision.Inventory.Filter
import Provision.Proofs.CrontabText
import Provision.Proofs.UndefinedNames

namespace Provision.Filter

open Text (isBlank trimChars trimStartChars trimEndChars splitFirstChars splitAllChars)

def conj : List Char := [' ', 'A', 'N', 'D', ' ']

theorem conj_toList : " AND ".toList = conj := by decide +kernel

/-- The parts that a text is cut into: each but the last ends before the first place to cut. -/
inductive Cut : List Char → List (List Char) → Prop
  | last {p : List Char} : ¬ conj <:+: p → Cut p [p]
  | part {p rest : List Char} {ps : List (List Char)} : ¬ conj <:+: p ++ [' '] → Cut rest ps →
      Cut (p ++ conj ++ rest) (p :: ps)

variable {cs a b p r w x z : List Char} {ps : List (List Char)}

/-- Two places to cut are one, or share a blank, or are apart. -/
theorem conj_overlap (same : conj ++ r = x ++ conj ++ b) :
    x = [] ∧ r = b ∨ x = [' ', 'A', 'N', 'D'] ∧ r = ['A', 'N', 'D', ' '] ++ b ∨
      ∃ y, x = conj ++ y ∧ r = y ++ conj ++ b := by
  unfold conj at same ⊢
  match x, same with
  | [], same => exact Or.inl ⟨rfl, by simpa using same⟩
  | [_], same | [_, _], same | [_, _, _], same => simp at same
  | [c₁, c₂, c₃, c₄], same =>
    simp only [List.cons_append, List.nil_append, List.cons.injEq] at same
    obtain ⟨rfl, rfl, rfl, rfl, -, rest⟩ := same
    exact Or.inr (Or.inl ⟨rfl, rest⟩)
  | c₁ :: c₂ :: c₃ :: c₄ :: c₅ :: y, same =>
    simp only [List.cons_append, List.nil_append, List.cons.injEq] at same
    obtain ⟨rfl, rfl, rfl, rfl, rfl, rest⟩ := same
    exact Or.inr (Or.inr ⟨y, rfl, by simpa using rest⟩)

theorem conj_infix_append (p x : List Char) : conj <:+: p ++ conj ++ x := ⟨p, x, rfl⟩

theorem conj_infix_and (p : List Char) : conj <:+: p ++ [' ', 'A', 'N', 'D'] ++ [' '] := ⟨p, [], by simp [conj]⟩

theorem clear_first (clear : ¬ conj <:+: p ++ [' ']) (same : p ++ conj ++ r = a ++ conj ++ b) :
    a = p ∧ r = b ∨ a = p ++ [' ', 'A', 'N', 'D'] ∧ r = ['A', 'N', 'D', ' '] ++ b ∨
      ∃ y, a = p ++ conj ++ y ∧ r = y ++ conj ++ b := by
  rw [List.append_assoc, List.append_assoc] at same
  rcases List.append_eq_append_iff.mp same with ⟨x, rfl, rest⟩ | ⟨x, rfl, rest⟩
  · rw [← List.append_assoc] at rest
    rcases conj_overlap rest with ⟨rfl, rfl⟩ | ⟨rfl, rfl⟩ | ⟨y, rfl, rfl⟩
    · exact Or.inl ⟨List.append_nil p, rfl⟩
    · exact Or.inr (Or.inl ⟨rfl, rfl⟩)
    · exact Or.inr (Or.inr ⟨y, by rw [List.append_assoc], rfl⟩)
  · rw [← List.append_assoc] at rest
    rcases conj_overlap rest with ⟨rfl, rfl⟩ | ⟨rfl, -⟩ | ⟨y, rfl, -⟩
    · exact Or.inl ⟨(List.append_nil a).symm, rfl⟩
    · exact absurd (conj_infix_and a) clear
    · refine absurd ?_ clear
      rw [← List.append_assoc, List.append_assoc]
      exact conj_infix_append a _

theorem clear_unique (clear : ¬ conj <:+: p ++ [' ']) (other : ¬ conj <:+: a ++ [' '])
    (same : p ++ conj ++ r = a ++ conj ++ b) : a = p ∧ r = b := by
  rcases clear_first clear same with here | ⟨rfl, -⟩ | ⟨y, rfl, -⟩
  · exact here
  · exact absurd (conj_infix_and p) other
  · rw [List.append_assoc] at other
    exact absurd (conj_infix_append p _) other

theorem splitFirst_clear (found : splitFirstChars conj cs = some (p, r)) : ¬ conj <:+: p ++ [' '] := by
  induction cs generalizing p with
  | nil => cases found
  | cons c cs ih =>
    have whole := Text.splitFirstChars_eq_some found
    unfold splitFirstChars at found
    split at found
    · cases found
      decide
    · rename_i lead
      obtain ⟨⟨q, s⟩, later, same⟩ := Option.map_eq_some_iff.mp found
      cases same
      intro inside
      rcases List.infix_cons_iff.mp inside with ⟨after, first⟩ | inside
      · have here : c :: cs = conj ++ (after ++ (['A', 'N', 'D', ' '] ++ r)) := by
          rw [whole, ← List.append_assoc, first]
          simp [conj]
        rw [Text.dropLead?_eq_some_iff.mpr here] at lead
        cases lead
      · exact ih later inside

theorem splitAll_of_none (none : splitFirstChars conj cs = none) : splitAllChars conj cs = [cs] := by
  rw [splitAllChars, dif_neg (by decide)]
  split
  · rfl
  · rename_i found
    rw [none] at found
    cases found

theorem splitAll_of_some (found : splitFirstChars conj cs = some (p, r)) :
    splitAllChars conj cs = p :: splitAllChars conj r := by
  rw [splitAllChars, dif_neg (by decide)]
  split
  · rename_i none
    rw [found] at none
    cases none
  · rename_i same
    rw [found] at same
    cases same
    rfl

theorem cut_split (cs : List Char) : Cut cs (splitAllChars conj cs) := by
  induction length : cs.length using Nat.strongRecOn generalizing cs with
  | ind n ih =>
    cases found : splitFirstChars conj cs with
    | none =>
      rw [splitAll_of_none found]
      exact .last (Text.not_infix_of_splitFirstChars found)
    | some halves =>
      obtain ⟨p, r⟩ := halves
      have shorter := Text.splitFirstChars_length (by decide) found
      rw [splitAll_of_some found, Text.splitFirstChars_eq_some found]
      exact .part (splitFirst_clear found) (ih r.length (length ▸ shorter) r rfl)

theorem Cut.split (cut : Cut cs ps) : splitAllChars conj cs = ps := by
  induction cut with
  | last clear =>
    rename_i p
    cases found : splitFirstChars conj p with
    | none => exact splitAll_of_none found
    | some halves =>
      obtain ⟨q, r⟩ := halves
      rw [Text.splitFirstChars_eq_some found] at clear
      exact absurd (conj_infix_append q r) clear
  | part clear _ ih =>
    rename_i p rest ps _
    cases found : splitFirstChars conj (p ++ conj ++ rest) with
    | none => exact absurd (conj_infix_append p rest) (Text.not_infix_of_splitFirstChars found)
    | some halves =>
      obtain ⟨q, r⟩ := halves
      obtain ⟨rfl, rfl⟩ := clear_unique clear (splitFirst_clear found) (Text.splitFirstChars_eq_some found)
      rw [splitAll_of_some found, ih]

theorem Cut.ne_nil (cut : Cut cs ps) : ps ≠ [] := by
  cases cut <;> exact List.cons_ne_nil _ _

theorem Cut.exists_last (cut : Cut cs ps) : ∃ front init p, cs = front ++ p ∧ ps = init ++ [p] ∧ ¬ conj <:+: p := by
  induction cut with
  | last clear => exact ⟨[], [], _, rfl, rfl, clear⟩
  | @part p rest ps _ _ ih =>
    obtain ⟨front, init, q, rfl, rfl, clear⟩ := ih
    exact ⟨p ++ conj ++ front, p :: init, q, by simp, rfl, clear⟩

theorem Cut.extend {init qs : List (List Char)} (cut : Cut cs (init ++ [p])) (more : Cut (p ++ z) qs) :
    Cut (cs ++ z) (init ++ qs) := by
  induction init generalizing cs with
  | nil =>
    cases cut with
    | last => exact more
    | part _ none => exact absurd rfl none.ne_nil
  | cons q init ih =>
    generalize parts : q :: init ++ [p] = ps at cut
    cases cut with
    | last => simp at parts
    | part clear later =>
      cases parts
      rw [List.append_assoc]
      exact .part clear (ih later)

/-- Wherever a text could be cut it is cut there, or a blank before. -/
theorem Cut.seam (cut : Cut (a ++ conj ++ b) ps) : ∃ init qs, ps = init ++ qs ∧ init ≠ [] ∧
    (Cut b qs ∨ Cut (['A', 'N', 'D', ' '] ++ b) qs) := by
  generalize text : a ++ conj ++ b = cs at cut
  induction cut generalizing a with
  | last clear =>
    rw [← text] at clear
    exact absurd (conj_infix_append a b) clear
  | @part p rest ps clear later ih =>
    rcases clear_first clear text.symm with ⟨-, rfl⟩ | ⟨-, rfl⟩ | ⟨y, -, rfl⟩
    · exact ⟨[p], ps, rfl, List.cons_ne_nil _ _, Or.inl later⟩
    · exact ⟨[p], ps, rfl, List.cons_ne_nil _ _, Or.inr later⟩
    · obtain ⟨init, qs, rfl, -, behind⟩ := ih rfl
      exact ⟨p :: init, qs, rfl, List.cons_ne_nil _ _, behind⟩

theorem Cut.head_prefix (cut : Cut (a ++ conj ++ b) (p :: ps)) : p <+: a := by
  generalize text : a ++ conj ++ b = cs at cut
  cases cut with
  | last clear =>
    rw [← text] at clear
    exact absurd (conj_infix_append a b) clear
  | part clear later =>
    rcases clear_first clear text.symm with ⟨rfl, -⟩ | ⟨rfl, -⟩ | ⟨y, rfl, -⟩
    · exact List.prefix_rfl
    · exact List.prefix_append _ _
    · rw [List.append_assoc]
      exact List.prefix_append _ _

def Blank (cs : List Char) : Prop := ∀ c ∈ cs, isBlank c = true

theorem blank_nil : Blank [] := fun _ member => absurd member List.not_mem_nil

theorem blank_space : Blank [' '] := by
  intro c member
  rw [List.mem_singleton.mp member]
  decide

theorem blank_append : Blank (a ++ b) ↔ Blank a ∧ Blank b := List.forall_mem_append

theorem trimEnd_pad (blank : Blank z) (cs : List Char) : trimEndChars (cs ++ z) = trimEndChars cs := by
  induction z using List.reverseRecOn with
  | nil => rw [List.append_nil]
  | append_singleton z c ih =>
    obtain ⟨front, last⟩ := blank_append.mp blank
    rw [← List.append_assoc, Text.trimEndChars_blank _ (last c List.mem_cons_self), ih front]

theorem trim_padded (before : Blank a) (after : Blank b) (trimmed : trimChars cs = cs) :
    trimChars (a ++ (cs ++ b)) = cs := by
  have lead : trimStartChars (a ++ (cs ++ b)) = trimStartChars (cs ++ b) := List.dropWhile_append_of_pos before
  have front : trimStartChars (cs ++ b) = cs ∨ trimStartChars (cs ++ b) = cs ++ b := by
    cases cs with
    | nil => exact Or.inl (List.dropWhile_eq_nil_iff.mpr after)
    | cons c cs =>
      have start := (Text.trimmed_ends trimmed).1
      have solid : isBlank c = false := by
        by_contra blank
        have shorter := congrArg List.length start
        rw [trimStartChars, List.dropWhile_cons_of_pos (by simpa using blank)] at shorter
        have suffix := (List.dropWhile_suffix isBlank (l := cs)).length_le
        simp at shorter
        omega
      exact Or.inr (List.dropWhile_cons_of_neg (by simp [solid]))
  rw [trimChars, lead]
  rcases front with front | front <;> rw [front]
  · exact (Text.trimmed_ends trimmed).2
  · rw [trimEnd_pad after]
    exact (Text.trimmed_ends trimmed).2

theorem trim_pad (before : Blank a) (after : Blank b) (cs : List Char) : trimChars (a ++ (cs ++ b)) = trimChars cs := by
  obtain ⟨lead, last, parts, first, final⟩ := Text.trimChars_parts cs
  have whole : a ++ (cs ++ b) = (a ++ lead) ++ (trimChars cs ++ (last ++ b)) := by
    conv_lhs => rw [parts]
    simp
  rw [whole, trim_padded (blank_append.mpr ⟨before, first⟩) (blank_append.mpr ⟨final, after⟩) (Text.trimChars_idem cs)]

/-- A place to cut behind blanks is in the text, or is where the blanks end. -/
theorem conj_behind_blanks (blank : Blank z) (inside : conj <:+: z ++ cs) :
    conj <:+: cs ∨ ∃ b r, Blank b ∧ z ++ cs = b ++ conj ++ r := by
  obtain ⟨front, rest, same⟩ := inside
  rw [List.append_assoc] at same
  rcases List.append_eq_append_iff.mp same with ⟨x, rfl, -⟩ | ⟨x, rfl, behind⟩
  · exact Or.inr ⟨front, rest, (blank_append.mp blank).1, by rw [← same, List.append_assoc]⟩
  · exact Or.inl ⟨x, rest, by rw [List.append_assoc, behind]⟩

/-- A place to cut before blanks is in the text, or the text ends in it but for its last blank. -/
theorem conj_before_blanks (blank : Blank z) (inside : conj <:+: cs ++ z) :
    conj <:+: cs ∨ ∃ front rest, cs = front ++ [' ', 'A', 'N', 'D'] ∧ z = ' ' :: rest := by
  obtain ⟨front, rest, same⟩ := inside
  rcases List.append_eq_append_iff.mp same with ⟨x, rfl, -⟩ | ⟨x, shared, rfl⟩
  · exact Or.inl (conj_infix_append front x)
  · -- The end of ` AND ` that is among the blanks is nothing or the last blank.
    have ended : front ++ [' ', 'A', 'N', 'D'] ++ [' '] = cs ++ x := by
      rw [← shared]
      simp [conj]
    rcases x.eq_nil_or_concat with rfl | ⟨y, c, rfl⟩
    · rw [List.append_nil] at shared
      exact Or.inl (shared ▸ ⟨front, [], List.append_nil _⟩)
    · rw [List.concat_eq_append, ← List.append_assoc] at ended
      obtain ⟨before, last⟩ := List.append_inj' ended rfl
      obtain rfl : ' ' = c := (List.cons.inj last).1
      rcases y.eq_nil_or_concat with rfl | ⟨v, d, rfl⟩
      · exact Or.inr ⟨front, rest, by simpa using before.symm, rfl⟩
      · rw [List.concat_eq_append, ← List.append_assoc] at before
        have fourth : front ++ [' ', 'A', 'N', 'D'] = (front ++ [' ', 'A', 'N']) ++ ['D'] := by simp
        rw [fourth] at before
        obtain rfl : 'D' = d := (List.cons.inj (List.append_inj' before rfl).2).1
        exact absurd (blank 'D' (by simp)) (by decide)

/-- The text ends in ` AND`, or in ` AND ` and blanks. -/
def EndsOpen (cs : List Char) : Prop := ∃ front blanks, Blank blanks ∧ cs ++ [' '] = front ++ conj ++ blanks

def StartsOpen (cs : List Char) : Prop := ∃ blanks rest, Blank blanks ∧ cs = blanks ++ conj ++ rest

theorem Cut.pad_start (cut : Cut cs ps) (blank : Blank z) (shut : ¬ StartsOpen (z ++ cs)) :
    ∃ qs, Cut (z ++ cs) qs ∧ qs.map trimChars = ps.map trimChars := by
  have padded : ∀ p, trimChars (z ++ p) = trimChars p := fun p => by
    have whole := trim_pad (b := []) blank blank_nil p
    rwa [List.append_nil] at whole
  cases cut with
  | last clear =>
    refine ⟨[z ++ cs], .last fun inside => ?_, by simp [padded]⟩
    rcases conj_behind_blanks blank inside with inside | starts
    · exact clear inside
    · exact shut starts
  | @part p rest ps clear later =>
    have cleared : ¬ conj <:+: z ++ p ++ [' '] := by
      intro inside
      rw [List.append_assoc] at inside
      rcases conj_behind_blanks blank inside with inside | ⟨b, r, before, same⟩
      · exact clear inside
      · refine shut ⟨b, r ++ ['A', 'N', 'D', ' '] ++ rest, before, ?_⟩
        have whole : z ++ (p ++ conj ++ rest) = z ++ (p ++ [' ']) ++ ['A', 'N', 'D', ' '] ++ rest := by simp [conj]
        rw [whole, same]
        simp
    have whole : z ++ (p ++ conj ++ rest) = z ++ p ++ conj ++ rest := by simp
    rw [whole]
    exact ⟨(z ++ p) :: ps, .part cleared later, by simp [padded]⟩

theorem Cut.join {qs : List (List Char)} (first : Cut a ps) (second : Cut b qs) (blank : Blank z)
    (shut : ¬ EndsOpen (a ++ z)) :
    ∃ rs, Cut (a ++ z ++ conj ++ b) rs ∧ rs.map trimChars = ps.map trimChars ++ qs.map trimChars := by
  obtain ⟨front, init, p, rfl, rfl, clear⟩ := first.exists_last
  have cleared : ¬ conj <:+: (p ++ z) ++ [' '] := by
    intro inside
    have blanks : Blank (z ++ [' ']) := blank_append.mpr ⟨blank, blank_space⟩
    rw [List.append_assoc] at inside
    rcases conj_before_blanks blanks inside with inside | ⟨most, rest, rfl, same⟩
    · exact clear inside
    · refine shut ⟨front ++ most, rest, ?_, ?_⟩
      · rw [same] at blanks
        exact fun c member => blanks c (List.mem_cons_of_mem _ member)
      · rw [List.append_assoc _ z, same]
        simp [conj]
  have behind : Cut (p ++ (z ++ conj ++ b)) ((p ++ z) :: qs) := by
    rw [← List.append_assoc, ← List.append_assoc]
    exact .part cleared second
  have padded := trim_pad (a := []) blank_nil blank p
  rw [List.nil_append] at padded
  refine ⟨init ++ (p ++ z) :: qs, ?_, by simp [padded]⟩
  have whole := first.extend behind
  rwa [← List.append_assoc, ← List.append_assoc] at whole

def termsOf (ps : List (List Char)) : Except Error (List Term) := ps.mapM fun p => parseTerm (String.ofList p)

def asked (query : String) : Except Error (List Term) := termsOf (splitAllChars conj (trimChars query.toList))

/-- The text is blank or `*:*`. -/
def AsksNothing (query : String) : Prop := Text.trim query = "" ∨ Text.trim query = "*:*"

instance (query : String) : Decidable (AsksNothing query) :=
  inferInstanceAs (Decidable (Text.trim query = "" ∨ Text.trim query = "*:*"))

theorem parse_eq (query : String) :
    parse query = if AsksNothing query then .ok all else (asked query).map Filter.mk := by
  unfold parse asked termsOf
  by_cases nothing : AsksNothing query
  · rw [if_pos nothing]
    exact if_pos nothing
  · rw [if_neg nothing]
    refine (if_neg nothing).trans ?_
    rw [Text.splitAll, conj_toList, List.mapM_map, Text.trim, String.toList_ofList, Function.comp_def]

theorem parse_cases {query : String} {f : Filter} (parsed : parse query = .ok f) :
    AsksNothing query ∧ f.terms = [] ∨ ¬ AsksNothing query ∧ asked query = .ok f.terms := by
  rw [parse_eq] at parsed
  by_cases nothing : AsksNothing query
  · rw [if_pos nothing] at parsed
    cases parsed
    exact Or.inl ⟨nothing, rfl⟩
  · rw [if_neg nothing] at parsed
    obtain ⟨ts, all, rfl⟩ := map_eq_ok.mp parsed
    exact Or.inr ⟨nothing, all⟩

theorem parse_eq_ok_iff {query : String} {ts : List Term} (asks : ¬ AsksNothing query) :
    parse query = .ok ⟨ts⟩ ↔ asked query = .ok ts := by
  rw [parse_eq, if_neg asks, map_eq_ok]
  refine ⟨?_, fun all => ⟨ts, all, rfl⟩⟩
  rintro ⟨same, all, ⟨⟩⟩
  exact all

theorem parseTerm_trim (p : List Char) : parseTerm (String.ofList (trimChars p)) = parseTerm (String.ofList p) := by
  unfold parseTerm
  rw [Text.trim, Text.trim, String.toList_ofList, String.toList_ofList, Text.trimChars_idem]

theorem termsOf_trim (ps : List (List Char)) : termsOf (ps.map trimChars) = termsOf ps := by
  unfold termsOf
  simp only [List.mapM_map, Function.comp_def, parseTerm_trim]

theorem termsOf_append (ps qs : List (List Char)) : termsOf (ps ++ qs) = (do
    let first ← termsOf ps
    let second ← termsOf qs
    pure (first ++ second)) :=
  List.mapM_append

end Provision.Filter
