import Mathlib.Data.List.DropRight
import Provision.Proofs.Insertions

namespace Provision

open Text

namespace BindingTable

variable {τ : Type} {t : BindingTable τ} {s v : τ} {bindings : List Binding}

def present (t : BindingTable τ) (s : τ) (bindings : List Binding) : List Binding :=
  (t.finds s bindings).filterMap fun
    | (_, none) => none
    | (b, some existing) => if existing = b.value then some b else none

theorem present_absent {b : Binding} {rest : List Binding} (absent : t.look s b.key = none) :
    t.present s (b :: rest) = t.present (t.put s b) rest := by
  rw [present, finds_absent absent]
  rfl

theorem present_held {b : Binding} {rest : List Binding} {existing : String}
    (found : t.look s b.key = some existing) :
    t.present s (b :: rest) = if existing = b.value then b :: t.present s rest else t.present s rest := by
  rw [present, finds_held found]
  by_cases same : existing = b.value <;> simp [present, same]

theorem steps_present (t : BindingTable τ) (bindings : List Binding) (s : τ) (r : Insertion) :
    (bindings.foldl t.step (s, r)).2.present = r.present ++ (t.present s bindings).map (·.key) := by
  induction bindings generalizing s r with
  | nil => simp [present, finds]
  | cons b rest ih =>
    rw [List.foldl_cons]
    cases found : t.look s b.key with
    | none =>
      have step : t.step (s, r) b = (t.put s b, r.addInserted b.key) := by simp [BindingTable.step, found]
      rw [step, ih, present_absent found]
      rfl
    | some existing =>
      have step : t.step (s, r) b = (s, r.addExisting b existing) := by simp [BindingTable.step, found]
      rw [step, ih, present_held found]
      by_cases same : existing = b.value <;> simp [Insertion.addExisting, same]

theorem pass_present (t : BindingTable τ) (s : τ) (bindings : List Binding) :
    (t.pass s bindings).2.present = (t.present s bindings).map (·.key) :=
  t.steps_present bindings s .none

theorem inserted_hold (lawful : t.Lawful) :
    ∀ b ∈ t.inserted s bindings, t.look ((t.inserted s bindings).foldl t.put s) b.key = some b.value := by
  induction bindings generalizing s with
  | nil => simp [inserted, finds]
  | cons b rest ih =>
    intro c member
    cases found : t.look s b.key with
    | none =>
      rw [inserted_absent found] at member ⊢
      rcases List.mem_cons.mp member with rfl | member
      · exact puts_keep lawful (t.inserted (t.put s c) rest) (lawful.look_put s c found)
      · exact ih c member
    | some existing =>
      rw [inserted_held found] at member ⊢
      exact ih c member

theorem mem_of_inserted {b : Binding} (member : b ∈ t.inserted s bindings) : b ∈ bindings := by
  induction bindings generalizing s with
  | nil => simp [inserted, finds] at member
  | cons c rest ih =>
    cases found : t.look s c.key with
    | none =>
      rw [inserted_absent found] at member
      exact List.mem_cons.mpr ((List.mem_cons.mp member).imp_right ih)
    | some existing =>
      rw [inserted_held found] at member
      exact List.mem_cons_of_mem c (ih member)

theorem mem_conflicts_of_held (held : ∀ b ∈ bindings, t.look s b.key ≠ none) {b : Binding} (member : b ∈ bindings)
    {existing : String} (found : t.look s b.key = some existing) (other : existing ≠ b.value) :
    ⟨b.key, existing, b.value⟩ ∈ t.conflicts s bindings := by
  induction bindings with
  | nil => cases member
  | cons c rest ih =>
    obtain ⟨here, later⟩ := List.forall_mem_cons.mp held
    obtain ⟨value, first⟩ := Option.ne_none_iff_exists'.mp here
    rw [conflicts_held first]
    rcases List.mem_cons.mp member with rfl | member
    · rw [found] at first
      cases first
      rw [if_neg other]
      exact List.mem_cons_self
    · split
      · exact ih later member
      · exact List.mem_cons_of_mem _ (ih later member)

section

variable (lawful : t.Lawful)
  (left : ∀ b ∈ bindings, t.look v b.key = t.look ((t.inserted s bindings).foldl t.put s) b.key)
include lawful left

theorem finds_again :
    t.finds v bindings = (t.finds s bindings).map fun found => (found.1, some (found.2.getD found.1.value)) := by
  induction bindings generalizing s with
  | nil => rfl
  | cons b rest ih =>
    obtain ⟨here, later⟩ := List.forall_mem_cons.mp left
    cases found : t.look s b.key with
    | none =>
      rw [inserted_absent found] at here later
      have again : t.look v b.key = some b.value :=
        here.trans (puts_keep lawful (t.inserted (t.put s b) rest) (lawful.look_put s b found))
      rw [finds_held again, finds_absent found, ih later]
      rfl
    | some existing =>
      rw [inserted_held found] at here later
      have again : t.look v b.key = some existing := here.trans (puts_keep lawful _ found)
      rw [finds_held again, finds_held found, ih later]
      rfl

theorem inserted_again : t.inserted v bindings = [] := by
  rw [inserted, finds_again lawful left, List.filterMap_map, List.filterMap_eq_nil_iff]
  exact fun _ _ => rfl

theorem conflicts_again : t.conflicts v bindings = t.conflicts s bindings := by
  rw [conflicts, finds_again lawful left, List.filterMap_map]
  apply List.filterMap_congr
  intro found _
  obtain ⟨b, _ | existing⟩ := found
  · simp
  · simp

theorem present_again : (t.present v bindings).Perm (t.inserted s bindings ++ t.present s bindings) := by
  rw [present, finds_again lawful left, List.filterMap_map, inserted, present]
  induction t.finds s bindings with
  | nil => exact .nil
  | cons found rest ih =>
    obtain ⟨b, _ | existing⟩ := found
    · simpa using ih
    · by_cases same : existing = b.value
      · simpa [same] using (ih.cons b).trans List.perm_middle.symm
      · simpa [same] using ih

end

end BindingTable

namespace LineSyntax

theorem between?_subset {mark : Char} {raw inner : List Char} (found : between? mark raw = some inner) :
    inner ⊆ raw := by
  unfold between? at found
  split at found
  · cases found
  · rename_i c rest
    split at found
    · split at found
      · rename_i d reversed back
        split at found
        · cases found
          intro x member
          have inside : x ∈ rest.reverse := by
            rw [back]
            exact List.mem_cons_of_mem d (List.mem_reverse.mp member)
          exact List.mem_cons_of_mem c (List.mem_reverse.mp inside)
        · cases found
      · cases found
    · cases found

theorem unquote_subset (raw : List Char) : unquote raw ⊆ raw := by
  unfold unquote
  split
  · rename_i inner found
    exact between?_subset found
  · cases found : between? '\'' raw with
    | none => exact List.Subset.refl raw
    | some inner => exact between?_subset found

theorem valueOf?_single {syn : LineSyntax} {key line value : String} (single : SingleLine line)
    (sets : syn.valueOf? key line = some value) : SingleLine key ∧ SingleLine value := by
  obtain ⟨rest, dropped, rfl⟩ := Option.map_eq_some_iff.mp sets
  have whole := dropLead?_eq_some_iff.mp dropped
  unfold SingleLine at *
  rw [whole] at single
  rw [String.toList_ofList]
  have keyed : key.toList ⊆ syn.lead key := by
    cases syn with
    | exported => exact fun c member => List.mem_append_left _ (List.mem_append_right _ member)
    | plain => exact fun c member => List.mem_append_left _ member
  refine ⟨fun member => single (List.mem_append_left _ (keyed member)), fun member => ?_⟩
  have trimmed : trimEndChars rest ⊆ rest := (List.rdropWhile_prefix isBlank rest).subset
  exact single (List.mem_append_right _ (trimmed (unquote_subset _ member)))

end LineSyntax

namespace Binding

/-- A second pass over the bindings leaves the text as the first left it, inserts nothing, has the conflicts of the
first and finds present what the first inserted or found present. -/
structure SettledByOnePass (content : String) (bindings : List Binding) (syn : LineSyntax) : Prop where
  text : (insertLines (insertLines content bindings syn).1 bindings syn).1 = (insertLines content bindings syn).1
  inserted : (insertLines (insertLines content bindings syn).1 bindings syn).2.inserted = []
  conflicts : (insertLines (insertLines content bindings syn).1 bindings syn).2.conflicts =
    (insertLines content bindings syn).2.conflicts
  present : (insertLines (insertLines content bindings syn).1 bindings syn).2.present.Perm
    ((insertLines content bindings syn).2.inserted ++ (insertLines content bindings syn).2.present)

variable {content : String} {bindings : List Binding} {syn : LineSyntax}

theorem look_single {ls : List String} (single : ∀ line ∈ ls, SingleLine line) {key value : String}
    (found : (lineTable syn).look ls key = some value) : SingleLine key ∧ SingleLine value := by
  obtain ⟨line, member, sets⟩ := List.exists_of_findSome?_eq_some found
  exact LineSyntax.valueOf?_single (single line member) sets

theorem look_insertLines (single : ∀ b ∈ (lineTable syn).inserted (lines content) bindings, b.Single) (key : String) :
    (lineTable syn).look (lines (insertLines content bindings syn).1) key =
      (lineTable syn).look
        (((lineTable syn).inserted (lines content) bindings).foldl (lineTable syn).put (lines content)) key := by
  rw [insertLines_text, puts_lines]
  split
  · rename_i nothing
    rw [nothing, List.map_nil, List.append_nil]
  · refine look_appendLines syn key content fun line member => ?_
    obtain ⟨b, there, rfl⟩ := List.mem_map.mp member
    exact (single b there).tidy syn

/-- One pass settles a text just if each binding that it inserts is written as one line. -/
theorem settledByOnePass_iff (content : String) (bindings : List Binding) (syn : LineSyntax) :
    SettledByOnePass content bindings syn ↔ ∀ b ∈ (lineTable syn).inserted (lines content) bindings, b.Single := by
  have lawful := lineTable_lawful syn
  have account (text : String) : (insertLines text bindings syn).2 = ((lineTable syn).pass (lines text) bindings).2 :=
    insertLines_account text bindings syn
  obtain ⟨-, firstInserted, firstConflicts⟩ := (lineTable syn).pass_eq (lines content) bindings
  obtain ⟨-, againInserted, againConflicts⟩ :=
    (lineTable syn).pass_eq (lines (insertLines content bindings syn).1) bindings
  constructor
  · intro settled b inserted
    have none : (lineTable syn).inserted (lines (insertLines content bindings syn).1) bindings = [] := by
      have keys := settled.inserted
      rwa [account, againInserted, List.map_eq_nil_iff] at keys
    have held := BindingTable.inserted_eq_nil_iff.mp none
    obtain ⟨existing, found⟩ := Option.ne_none_iff_exists'.mp (held b (BindingTable.mem_of_inserted inserted))
    obtain ⟨key, value⟩ := look_single (fun line => lines_single) found
    by_cases same : existing = b.value
    · exact ⟨key, same ▸ value⟩
    · -- The conflict would be one of the first pass, which left the key the value of the binding.
      have conflict := BindingTable.mem_conflicts_of_held held (BindingTable.mem_of_inserted inserted) found same
      have conflicts := settled.conflicts
      rw [account, account, againConflicts, firstConflicts] at conflicts
      rw [conflicts] at conflict
      have there := BindingTable.conflicts_hold lawful _ conflict
      rw [BindingTable.inserted_hold lawful b inserted] at there
      exact absurd (Option.some.inj there).symm same
  · intro single
    have left : ∀ b ∈ bindings, (lineTable syn).look (lines (insertLines content bindings syn).1) b.key = _ :=
      fun b _ => look_insertLines single b.key
    have none := BindingTable.inserted_again lawful left
    refine ⟨?_, ?_, ?_, ?_⟩
    · rw [insertLines_text, if_pos none]
    · rw [account, againInserted, none]
      rfl
    · rw [account, account, againConflicts, firstConflicts, BindingTable.conflicts_again lawful left]
    · rw [account, account, firstInserted, BindingTable.pass_present, BindingTable.pass_present, ← List.map_append]
      exact (BindingTable.present_again lawful left).map _

def brokenBindings : List Binding := [⟨"A", "x\ny"⟩, ⟨"B\nC", "z"⟩]

def brokenText : String := "A=\"x\ny\"\nB\nC=\"z\"\n"

/-- The first value is read back as another one, and the second key is never found and inserted again. -/
theorem brokenBindings_not_settled :
    insertLines "" brokenBindings .plain = (brokenText, ⟨["A", "B\nC"], [], []⟩) ∧
      insertLines brokenText brokenBindings .plain =
        (brokenText ++ "B\nC=\"z\"\n", ⟨["B\nC"], [], [⟨"A", "\"x", "x\ny"⟩]⟩) ∧
      ¬ SettledByOnePass "" brokenBindings .plain := by
  have first : insertLines "" brokenBindings .plain = (brokenText, ⟨["A", "B\nC"], [], []⟩) := by decide +kernel
  have second : insertLines brokenText brokenBindings .plain =
      (brokenText ++ "B\nC=\"z\"\n", ⟨["B\nC"], [], [⟨"A", "\"x", "x\ny"⟩]⟩) := by
    decide +kernel
  refine ⟨first, second, fun settled => ?_⟩
  have inserted := settled.inserted
  rw [first, second] at inserted
  cases inserted

end Binding

end Provision
