import Provision.Binding.Environment
import Provision.Binding.Lines

namespace Provision

namespace Insertion

theorem addInserted_isChanged (r : Insertion) (key : String) : (r.addInserted key).isChanged = true := by
  simp [addInserted, isChanged]

theorem addExisting_isChanged (r : Insertion) (b : Binding) (existing : String) :
    (r.addExisting b existing).isChanged = r.isChanged := by
  unfold addExisting
  split <;> rfl

theorem addExisting_agrees {r : Insertion} {b : Binding} {existing : String}
    (none : (r.addExisting b existing).conflicts = []) : existing = b.value ∧ r.conflicts = [] := by
  unfold addExisting at none
  split at none
  · exact ⟨‹_›, none⟩
  · simp at none

end Insertion

/-- Something that bindings are kept in, with what it gives a key and how a binding is put into it. -/
structure BindingTable (τ : Type) where
  look : τ → String → Option String
  put : τ → Binding → τ

namespace BindingTable

variable {τ : Type} (t : BindingTable τ)

def step (state : τ × Insertion) (b : Binding) : τ × Insertion :=
  match t.look state.1 b.key with
  | some existing => (state.1, state.2.addExisting b existing)
  | none => (t.put state.1 b, state.2.addInserted b.key)

def pass (s : τ) (bindings : List Binding) : τ × Insertion := bindings.foldl t.step (s, .none)

/-- A binding that is put into a table is there, and what was there stays. -/
structure Lawful : Prop where
  look_put : ∀ s b, t.look s b.key = none → t.look (t.put s b) b.key = some b.value
  keeps : ∀ s b key value, t.look s key = some value → t.look (t.put s b) key = some value

variable {t}

theorem step_unchanged {state : τ × Insertion} {b : Binding} (unchanged : (t.step state b).2.isChanged = false) :
    (t.step state b).1 = state.1 ∧ state.2.isChanged = false := by
  unfold step at unchanged ⊢
  cases found : t.look state.1 b.key with
  | some existing =>
    rw [found] at unchanged
    exact ⟨rfl, by rwa [Insertion.addExisting_isChanged] at unchanged⟩
  | none =>
    rw [found] at unchanged
    rw [Insertion.addInserted_isChanged] at unchanged
    cases unchanged

theorem steps_unchanged (bindings : List Binding) (state : τ × Insertion)
    (unchanged : (bindings.foldl t.step state).2.isChanged = false) :
    (bindings.foldl t.step state).1 = state.1 ∧ state.2.isChanged = false := by
  induction bindings generalizing state with
  | nil => exact ⟨rfl, unchanged⟩
  | cons b rest ih =>
    obtain ⟨same, before⟩ := ih (t.step state b) unchanged
    obtain ⟨here, unchangedBefore⟩ := step_unchanged before
    exact ⟨same.trans here, unchangedBefore⟩

theorem pass_unchanged {s : τ} {bindings : List Binding} (unchanged : (t.pass s bindings).2.isChanged = false) :
    (t.pass s bindings).1 = s :=
  (steps_unchanged bindings (s, .none) unchanged).1

theorem steps_keep (lawful : t.Lawful) (bindings : List Binding) (state : τ × Insertion) {key value : String}
    (found : t.look state.1 key = some value) : t.look (bindings.foldl t.step state).1 key = some value := by
  induction bindings generalizing state with
  | nil => exact found
  | cons b rest ih =>
    apply ih
    unfold step
    cases t.look state.1 b.key with
    | some existing => exact found
    | none => exact lawful.keeps _ _ _ _ found

theorem pass_keeps (lawful : t.Lawful) {s : τ} (bindings : List Binding) {key value : String}
    (found : t.look s key = some value) : t.look (t.pass s bindings).1 key = some value :=
  steps_keep lawful bindings (s, .none) found

theorem step_holds (lawful : t.Lawful) (state : τ × Insertion) (b : Binding) :
    ∃ value, t.look (t.step state b).1 b.key = some value ∧
      ((t.step state b).2.conflicts = [] → value = b.value ∧ state.2.conflicts = []) := by
  unfold step
  cases found : t.look state.1 b.key with
  | some existing => exact ⟨existing, found, Insertion.addExisting_agrees⟩
  | none => exact ⟨b.value, lawful.look_put _ _ found, fun none => ⟨rfl, none⟩⟩

theorem steps_hold (lawful : t.Lawful) (bindings : List Binding) (state : τ × Insertion) :
    (∀ b ∈ bindings, ∃ value, t.look (bindings.foldl t.step state).1 b.key = some value ∧
      ((bindings.foldl t.step state).2.conflicts = [] → value = b.value)) ∧
    ((bindings.foldl t.step state).2.conflicts = [] → state.2.conflicts = []) := by
  induction bindings generalizing state with
  | nil => exact ⟨by simp, id⟩
  | cons b rest ih =>
    obtain ⟨later, before⟩ := ih (t.step state b)
    obtain ⟨value, here, agrees⟩ := step_holds lawful state b
    refine ⟨?_, fun none => (agrees (before none)).2⟩
    intro c member
    rcases List.mem_cons.mp member with rfl | member
    · exact ⟨value, steps_keep lawful rest _ here, fun none => (agrees (before none)).1⟩
    · exact later c member

/-- After a pass every binding is set, to the requested value if there are no conflicts. -/
theorem pass_holds (lawful : t.Lawful) (s : τ) (bindings : List Binding) :
    ∀ b ∈ bindings, ∃ value, t.look (t.pass s bindings).1 b.key = some value ∧
      ((t.pass s bindings).2.conflicts = [] → value = b.value) :=
  (steps_hold lawful bindings (s, .none)).1

theorem steps_of_held (bindings : List Binding) (state : τ × Insertion)
    (held : ∀ b ∈ bindings, ∃ value, t.look state.1 b.key = some value) :
    (bindings.foldl t.step state).2.isChanged = state.2.isChanged ∧
      ((∀ b ∈ bindings, t.look state.1 b.key = some b.value) →
        (bindings.foldl t.step state).2.conflicts = state.2.conflicts) := by
  induction bindings generalizing state with
  | nil => exact ⟨rfl, fun _ => rfl⟩
  | cons b rest ih =>
    obtain ⟨existing, found⟩ := held b List.mem_cons_self
    have here : t.step state b = (state.1, state.2.addExisting b existing) := by simp [step, found]
    rw [List.foldl_cons, here]
    obtain ⟨unchanged, noConflict⟩ := ih (state.1, state.2.addExisting b existing)
      fun c member => held c (List.mem_cons_of_mem _ member)
    refine ⟨by rw [unchanged, Insertion.addExisting_isChanged], ?_⟩
    intro same
    rw [noConflict fun c member => same c (List.mem_cons_of_mem _ member)]
    have equal : existing = b.value := by
      have := same b List.mem_cons_self
      rw [found] at this
      exact Option.some.inj this
    simp [Insertion.addExisting, equal]

/-- A pass over bindings that are set inserts nothing; with the values requested it has no conflicts. -/
theorem pass_of_held {s : τ} {bindings : List Binding}
    (held : ∀ b ∈ bindings, ∃ value, t.look s b.key = some value) :
    (t.pass s bindings).2.isChanged = false ∧
      ((∀ b ∈ bindings, t.look s b.key = some b.value) → (t.pass s bindings).2.conflicts = []) :=
  steps_of_held bindings (s, .none) held

end BindingTable

namespace Environment

def table : BindingTable Environment := ⟨get?, fun env b => (env.insertIfAbsent b.key b.value).2⟩

theorem insertAll_eq_pass (env : Environment) (bindings : List Binding) :
    env.insertAll bindings = table.pass env bindings := rfl

theorem insertAll_unchanged {env : Environment} {bindings : List Binding}
    (unchanged : (env.insertAll bindings).2.isChanged = false) : (env.insertAll bindings).1 = env := by
  rw [insertAll_eq_pass] at unchanged ⊢
  exact BindingTable.pass_unchanged unchanged

theorem insertIfAbsent_of_none {env : Environment} {key : String} (absent : env.get? key = none) (value : String) :
    (env.insertIfAbsent key value).2 = ⟨env.vars.insert key value⟩ := by
  have missing : env.vars.contains key = false := by
    unfold get? SortedMap.get? at absent
    simp [SortedMap.contains, absent]
  simp [insertIfAbsent, missing]

theorem table_lawful : table.Lawful where
  look_put env b absent := by
    change (env.insertIfAbsent b.key b.value).2.get? b.key = _
    rw [insertIfAbsent_of_none absent]
    exact SortedMap.get?_insert_self _ _ _
  keeps env b key value found := by
    change (env.insertIfAbsent b.key b.value).2.get? key = _
    cases present : env.get? b.key with
    | some existing =>
      have there : env.vars.contains b.key = true := by
        unfold get? SortedMap.get? at present
        simp [SortedMap.contains, present]
      have same : (env.insertIfAbsent b.key b.value).2 = env := by simp [insertIfAbsent, there]
      rw [same]
      exact found
    | none =>
      rw [insertIfAbsent_of_none present]
      have other : key ≠ b.key := by
        rintro rfl
        change env.get? b.key = _ at found
        rw [present] at found
        cases found
      exact (SortedMap.get?_insert_of_ne _ _ other).trans found

end Environment

end Provision
