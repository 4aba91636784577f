import Provision.Proofs.Lines
import Provision.Resource.LineEdit

namespace Provision

open Text

namespace BindingTable

variable {τ : Type} {t : BindingTable τ} {s : τ} {b : Binding} {rest : List Binding}

/-- Each binding with what its key holds when its turn comes. -/
def finds (t : BindingTable τ) (s : τ) : List Binding → List (Binding × Option String)
  | [] => []
  | b :: rest => (b, t.look s b.key) :: t.finds (if (t.look s b.key).isNone then t.put s b else s) rest

def inserted (t : BindingTable τ) (s : τ) (bindings : List Binding) : List Binding :=
  (t.finds s bindings).filterMap fun
    | (b, none) => some b
    | (_, some _) => none

def conflicts (t : BindingTable τ) (s : τ) (bindings : List Binding) : List Conflict :=
  (t.finds s bindings).filterMap fun
    | (_, none) => none
    | (b, some existing) => if existing = b.value then none else some ⟨b.key, existing, b.value⟩

section

variable {existing : String} (found : t.look s b.key = some existing) (absent : t.look s b.key = none)

include absent in
theorem finds_absent : t.finds s (b :: rest) = (b, none) :: t.finds (t.put s b) rest := by
  change (b, t.look s b.key) :: t.finds (if (t.look s b.key).isNone then t.put s b else s) rest = _
  rw [absent]
  rfl

include found in
theorem finds_held : t.finds s (b :: rest) = (b, some existing) :: t.finds s rest := by
  change (b, t.look s b.key) :: t.finds (if (t.look s b.key).isNone then t.put s b else s) rest = _
  rw [found]
  rfl

include absent in
theorem inserted_absent : t.inserted s (b :: rest) = b :: t.inserted (t.put s b) rest := by
  rw [inserted, finds_absent absent]
  rfl

include found in
theorem inserted_held : t.inserted s (b :: rest) = t.inserted s rest := by
  rw [inserted, finds_held found]
  rfl

include absent in
theorem conflicts_absent : t.conflicts s (b :: rest) = t.conflicts (t.put s b) rest := by
  rw [conflicts, finds_absent absent]
  rfl

include found in
theorem conflicts_held : t.conflicts s (b :: rest) =
    if existing = b.value then t.conflicts s rest else ⟨b.key, existing, b.value⟩ :: t.conflicts s rest := by
  rw [conflicts, finds_held found]
  by_cases same : existing = b.value <;> simp [conflicts, same]

end

/-- A pass puts the bindings in whose keys hold nothing, and accounts for them and for the conflicts. -/
theorem steps_eq (t : BindingTable τ) (bindings : List Binding) (s : τ) (r : Insertion) :
    (bindings.foldl t.step (s, r)).1 = (t.inserted s bindings).foldl t.put s ∧
      (bindings.foldl t.step (s, r)).2.inserted = r.inserted ++ (t.inserted s bindings).map (·.key) ∧
      (bindings.foldl t.step (s, r)).2.conflicts = r.conflicts ++ t.conflicts s bindings := by
  induction bindings generalizing s r with
  | nil => simp [inserted, conflicts, finds]
  | cons b rest ih =>
    rw [List.foldl_cons]
    cases found : t.look s b.key with
    | none =>
      have step : t.step (s, r) b = (t.put s b, r.addInserted b.key) := by simp [BindingTable.step, found]
      obtain ⟨world, keys, others⟩ := ih (t.put s b) (r.addInserted b.key)
      rw [step, world, keys, others, inserted_absent found, conflicts_absent found]
      simp [Insertion.addInserted]
    | some existing =>
      have step : t.step (s, r) b = (s, r.addExisting b existing) := by simp [BindingTable.step, found]
      obtain ⟨world, keys, others⟩ := ih s (r.addExisting b existing)
      rw [step, world, keys, others, inserted_held found, conflicts_held found]
      by_cases same : existing = b.value <;> simp [Insertion.addExisting, same]

theorem pass_eq (t : BindingTable τ) (s : τ) (bindings : List Binding) :
    (t.pass s bindings).1 = (t.inserted s bindings).foldl t.put s ∧
      (t.pass s bindings).2.inserted = (t.inserted s bindings).map (·.key) ∧
      (t.pass s bindings).2.conflicts = t.conflicts s bindings :=
  t.steps_eq bindings s .none

theorem inserted_eq_nil_iff {bindings : List Binding} :
    t.inserted s bindings = [] ↔ ∀ b ∈ bindings, t.look s b.key ≠ none := by
  induction bindings with
  | nil => simp [inserted, finds]
  | cons b rest ih =>
    rw [List.forall_mem_cons]
    cases found : t.look s b.key with
    | none => simp [inserted_absent found]
    | some existing => simp [inserted_held found, ih]

theorem puts_keep (lawful : t.Lawful) (bindings : List Binding) {key value : String}
    (found : t.look s key = some value) : t.look (bindings.foldl t.put s) key = some value := by
  induction bindings generalizing s with
  | nil => exact found
  | cons b rest ih => exact ih (lawful.keeps s b key value found)

theorem conflicts_hold (lawful : t.Lawful) {bindings : List Binding} :
    ∀ c ∈ t.conflicts s bindings, t.look ((t.inserted s bindings).foldl t.put s) c.key = some c.existing := by
  induction bindings generalizing s with
  | nil => simp [conflicts, finds]
  | cons b rest ih =>
    intro c member
    cases found : t.look s b.key with
    | none =>
      rw [conflicts_absent found] at member
      rw [inserted_absent found]
      exact ih c member
    | some existing =>
      rw [conflicts_held found] at member
      rw [inserted_held found]
      by_cases same : existing = b.value
      · rw [if_pos same] at member
        exact ih c member
      · rw [if_neg same] at member
        rcases List.mem_cons.mp member with rfl | member
        · exact puts_keep lawful _ found
        · exact ih c member

end BindingTable

namespace LineEdit

def ofTarget {β : Type} (e : LineEdit) (content : String) (env : Environment)
    (f : (τ : Type) → BindingTable τ → τ → β) : β :=
  match e.path with
  | some _ => f _ (Binding.lineTable e.lineSyntax) (lines content)
  | none => f _ Environment.table env

variable (e : LineEdit) (content : String) (env : Environment)

def holds? (key : String) : Option String := e.ofTarget content env fun _ t s => t.look s key

def inserted : List Binding := e.ofTarget content env fun _ t s => t.inserted s e.bindings

def conflicts : List Conflict := e.ofTarget content env fun _ t s => t.conflicts s e.bindings

def account : Insertion := e.ofTarget content env fun _ t s => (t.pass s e.bindings).2

def filled : String × Environment :=
  match e.path with
  | some _ =>
    (if e.inserted content env = [] then content
      else Binding.appendLines content ((e.inserted content env).map e.lineSyntax.lineFor), env)
  | none => (content, (e.inserted content env).foldl Environment.table.put env)

theorem account_eq : (e.account content env).inserted = (e.inserted content env).map (·.key) ∧
    (e.account content env).conflicts = e.conflicts content env := by
  unfold account inserted conflicts ofTarget
  cases e.path with
  | some path => exact (BindingTable.pass_eq _ _ _).2
  | none => exact (BindingTable.pass_eq _ _ _).2

theorem account_isChanged : (e.account content env).isChanged = true ↔ e.inserted content env ≠ [] := by
  unfold Insertion.isChanged
  rw [(e.account_eq content env).1]
  cases e.inserted content env <;> simp

theorem inserted_ne_nil_iff : e.inserted content env ≠ [] ↔ ∃ b ∈ e.bindings, e.holds? content env b.key = none := by
  have held : e.inserted content env = [] ↔ ∀ b ∈ e.bindings, e.holds? content env b.key ≠ none := by
    unfold inserted holds? ofTarget
    cases e.path with
    | some path => exact BindingTable.inserted_eq_nil_iff
    | none => exact BindingTable.inserted_eq_nil_iff
  rw [ne_eq, held]
  simp

theorem filled_keeps {key value : String} (holds : e.holds? content env key = some value) :
    e.holds? (e.filled content env).1 (e.filled content env).2 key = some value := by
  unfold holds? ofTarget filled at *
  cases here : e.path with
  | none =>
    rw [here] at holds
    exact BindingTable.puts_keep Environment.table_lawful _ holds
  | some path =>
    rw [here] at holds
    dsimp only
    split
    · exact holds
    · exact Binding.look_appendLines_keeps _ holds

end LineEdit

theorem Binding.puts_lines (syn : LineSyntax) (bindings : List Binding) (known : List String) :
    bindings.foldl (lineTable syn).put known = known ++ bindings.map syn.lineFor := by
  induction bindings generalizing known with
  | nil => simp
  | cons b rest ih =>
    rw [List.foldl_cons, ih]
    simp [lineTable]

theorem Binding.insertLines_text (content : String) (bindings : List Binding) (syn : LineSyntax) :
    (insertLines content bindings syn).1 =
      if (lineTable syn).inserted (lines content) bindings = [] then content
      else appendLines content (((lineTable syn).inserted (lines content) bindings).map syn.lineFor) := by
  obtain ⟨known, keys, -⟩ := (lineTable syn).pass_eq (lines content) bindings
  obtain ⟨new, added, -, result⟩ := insertLines_eq content bindings syn
  have lines : new = ((lineTable syn).inserted (lines content) bindings).map syn.lineFor := by
    rw [known, puts_lines] at added
    exact (List.append_cancel_left added).symm
  rw [result, lines, Insertion.isChanged, keys]
  cases (lineTable syn).inserted (Text.lines content) bindings <;> rfl

namespace LineEdit

variable (e : LineEdit) (content : String) (env : Environment)

theorem filled_conflicts (single : e.path ≠ none → ∀ b ∈ e.bindings, b.Single) :
    ∀ c ∈ e.conflicts content env,
      e.holds? (e.filled content env).1 (e.filled content env).2 c.key = some c.existing := by
  intro c member
  unfold conflicts ofTarget at member
  unfold holds? ofTarget filled inserted ofTarget
  cases here : e.path with
  | none =>
    rw [here] at member
    exact BindingTable.conflicts_hold Environment.table_lawful c member
  | some path =>
    rw [here] at member
    dsimp only
    rw [← Binding.insertLines_text, Binding.insertLines_look content e.lineSyntax e.lineSyntax c.key (single (by simp [here])),
      ((Binding.lineTable e.lineSyntax).pass_eq _ _).1]
    exact BindingTable.conflicts_hold (Binding.lineTable_lawful e.lineSyntax) c member

theorem insertLines_filled (here : e.path ≠ none) :
    Binding.insertLines content e.bindings e.lineSyntax = ((e.filled content env).1, e.account content env) := by
  obtain ⟨path, here⟩ := Option.ne_none_iff_exists'.mp here
  unfold filled account inserted ofTarget
  rw [here]
  exact Prod.ext (Binding.insertLines_text _ _ _) (Binding.insertLines_account _ _ _)

theorem insertAll_filled (here : e.path = none) :
    env.insertAll e.bindings = ((e.filled content env).2, e.account content env) := by
  unfold filled account inserted ofTarget
  rw [here]
  exact Prod.ext (Environment.table.pass_eq env e.bindings).1 rfl

end LineEdit

end Provision
