import Provision.Proofs.Insertions
import Provision.Proofs.MachineHost
import Provision.Proofs.Standstill
import Provision.Proofs.Verdicts

namespace Provision

open Text

variable {σ α : Type} {host : Host σ}

namespace LineEdit

variable {e : LineEdit} {content : String}

def reads (e : LineEdit) : List Call :=
  match e.path with
  | some path => [.read path]
  | none => []

def writes (e : LineEdit) (content : String) (env : Environment) : List Call :=
  match e.path with
  | some path => if e.inserted content env = [] then [] else [.write path (e.filled content env).1]
  | none => []

def found (host : Host σ) (w : World σ) (e : LineEdit) : Except Fault String :=
  match e.path with
  | some path => (host.answer (.read path) w.machine).1.map (·.getD "")
  | none => .ok ""

theorem run_preview (e : LineEdit) (w : World σ) : w.run (e.preview host).run =
    (((e.found host w).map (e.account · w.context.env)).mapError .collaborator, w.afterAll host e.reads) := by
  unfold preview found reads
  cases here : e.path with
  | none =>
    change (Except.ok (w.context.env.insertAll e.bindings).2, w) = _
    rw [e.insertAll_filled "" w.context.env here, World.afterAll_nil]
    rfl
  | some path =>
    dsimp only
    rw [World.try_bind, run_readFile]
    cases (host.answer (.read path) w.machine).1 with
    | error fault => rfl
    | ok content =>
      change (Except.ok _, _) = (Except.ok _, _)
      rw [e.insertLines_filled _ w.context.env (by simp [here])]
      rfl

def survey (host : Host σ) (e : LineEdit) : Action σ Insertion := do
  let r ← e.preview host
  e.settle r
  return r

theorem check_eq (inserting : e.replace = none) : e.check host = (do
    let r ← e.survey host
    if r.isChanged then return .drifted (e.describeInsertion r)
    return .inSync) := by
  simp [check, survey, inserting]

theorem apply_eq (inserting : e.replace = none) : e.apply host = (do
    let _ ← e.survey host
    let r ← e.insert host
    if r.isChanged then return .converged (e.describeInsertion r)
    return .unchanged) := by
  simp [apply, survey, inserting]

theorem run_settle (e : LineEdit) (r : Insertion) (w : World σ) : w.run (e.settle r).run =
    match e.policy w, r.conflicts with
    | .fail, c :: _ => (.error (c.toError e.targetName), w)
    | .fail, [] => (.ok (), w)
    | .warn, conflicts => (.ok (), w.warned (w.context.warnings ++ conflicts.map (·.warning e.targetName))) := by
  rw [settle_eq]
  change w.run (e.settleBy r (e.policy w)).run = _
  cases e.policy w with
  | warn => rfl
  | fail =>
    unfold settleBy
    cases r.conflicts <;> rfl

/-- The world after a look at the target and a warning for each conflict. -/
def noted (host : Host σ) (e : LineEdit) (content : String) (w : World σ) : World σ :=
  (w.afterAll host e.reads).warned
    (w.context.warnings ++ (e.conflicts content w.context.env).map (·.warning e.targetName))

theorem run_survey {w : World σ} (found : e.found host w = .ok content) : w.run (e.survey host).run =
    match e.policy w, e.conflicts content w.context.env with
    | .fail, c :: _ => (.error (c.toError e.targetName), w.afterAll host e.reads)
    | .fail, [] => (.ok (e.account content w.context.env), w.afterAll host e.reads)
    | .warn, _ => (.ok (e.account content w.context.env), e.noted host content w) := by
  have policy : e.policy (w.afterAll host e.reads) = e.policy w := rfl
  rw [survey, World.try_bind, run_preview, found]
  change World.run (w.afterAll host e.reads) _ = _
  rw [World.try_bind, run_settle, policy, (e.account_eq content w.context.env).2]
  cases e.policy w with
  | warn => rfl
  | fail => cases e.conflicts content w.context.env <;> rfl

/-- The file of an edit, if it has one, holds the content when it is read once and again, and then can be written. -/
structure Accessible (host : Host σ) (w : World σ) (e : LineEdit) (content : String) : Prop where
  found : e.found host w = .ok content
  again : e.found host (w.afterAll host e.reads) = .ok content
  written : ∀ path, e.path = some path → ∀ text,
    (host.answer (.write path text) (w.afterAll host (e.reads ++ e.reads)).machine).1 = .ok ()

def applied (host : Host σ) (e : LineEdit) (content : String) (w : World σ) : World σ :=
  { w.afterAll host (e.reads ++ e.reads ++ e.writes content w.context.env) with
    context := { w.context with
      env := (e.filled content w.context.env).2
      warnings := w.context.warnings ++ (e.conflicts content w.context.env).map (·.warning e.targetName) } }

theorem run_insert_environment (here : e.path = none) (content : String) (v : World σ) : v.run (e.insert host).run =
    (.ok (e.account content v.context.env),
      { v with context := { v.context with env := (e.filled content v.context.env).2 } }) := by
  have pass := e.insertAll_filled content v.context.env here
  have ran : v.run (e.insert host).run = (.ok (v.context.env.insertAll e.bindings).2,
      { v with context := { v.context with env := (v.context.env.insertAll e.bindings).1 } }) := by
    unfold insert
    rw [here]
    rfl
  rw [ran, pass]

theorem run_insert_file {path : String} {v : World σ} (here : e.path = some path) (found : e.found host v = .ok content)
    (written : (host.answer (.write path (e.filled content v.context.env).1) (v.after host (.read path)).machine).1 =
      .ok ()) : v.run (e.insert host).run =
        (.ok (e.account content v.context.env), v.afterAll host (.read path :: e.writes content v.context.env)) := by
  have changed := e.account_isChanged content v.context.env
  simp only [LineEdit.found, here] at found
  have looked : v.run (e.insert host).run = World.run (v.after host (.read path)) (do
      if (e.account content v.context.env).isChanged then
        Action.ofReply (perform host (.write path (e.filled content v.context.env).1))
      return e.account content v.context.env : Action σ Insertion).run := by
    unfold insert
    rw [here]
    dsimp only
    rw [World.try_bind, run_readFile, found]
    dsimp only [Except.mapError]
    rw [e.insertLines_filled content v.context.env (by simp [here])]
  rw [looked]
  by_cases none : e.inserted content v.context.env = []
  · have writes : e.writes content v.context.env = [] := by simp [LineEdit.writes, here, none]
    rw [writes, if_neg (by rw [changed]; exact not_not_intro none)]
    rfl
  · have writes : e.writes content v.context.env = [.write path (e.filled content v.context.env).1] := by
      simp [LineEdit.writes, here, none]
    have done : World.run (v.after host (.read path))
        (perform host (.write path (e.filled content v.context.env).1)) =
        (.ok (), (v.after host (.read path)).after host (.write path (e.filled content v.context.env).1)) :=
      Prod.ext written rfl
    rw [writes, if_pos (changed.mpr none), World.try_bind, World.try_ofReply, done]
    change (Except.ok _, _) = (Except.ok _, _)
    rw [← List.singleton_append, ← World.afterAll_append]
    rfl

theorem run_insert {w : World σ} (accessible : e.Accessible host w content) :
    World.run (e.noted host content w) (e.insert host).run =
      (.ok (e.account content w.context.env), e.applied host content w) := by
  cases here : e.path with
  | none =>
    have reads : e.reads = [] := by simp [LineEdit.reads, here]
    have writes : e.writes content w.context.env = [] := by simp [LineEdit.writes, here]
    have last : { e.noted host content w with context :=
        { (e.noted host content w).context with env := (e.filled content w.context.env).2 } } =
          e.applied host content w := by
      simp [applied, noted, World.warned, reads, writes]
    exact (run_insert_environment here content (e.noted host content w)).trans (congrArg (Prod.mk _) last)
  | some path =>
    have reads : e.reads = [.read path] := by simp [LineEdit.reads, here]
    have env : (e.filled content w.context.env).2 = w.context.env := by simp [LineEdit.filled, here]
    have written := accessible.written path here (e.filled content w.context.env).1
    rw [reads] at written
    have last : World.afterAll host (e.noted host content w) (.read path :: e.writes content w.context.env) =
        e.applied host content w := by
      simp [applied, noted, World.afterAll, World.warned, reads, env, Host.leads]
    exact (run_insert_file (v := e.noted host content w) here accessible.again (by rw [noted, reads]; exact written)).trans
      (congrArg (Prod.mk _) last)

/-- The edit is refused for a conflict: its target is looked at, and that is all. -/
structure Refuses (host : Host σ) (w : World σ) (e : LineEdit) (c : Conflict) : Prop where
  check : w.run (e.check host).run = (.error (c.toError e.targetName), w.afterAll host e.reads)
  apply : w.run (e.apply host).run = (.error (c.toError e.targetName), w.afterAll host e.reads)

/-- Conflicts are put up with: each is warned of, and what the target holds stays. -/
structure PutsUp (host : Host σ) (w : World σ) (e : LineEdit) (content : String) : Prop where
  check : ∃ drift, w.run (e.check host).run = (.ok drift, e.noted host content w)
  apply : ∃ change, w.run (e.apply host).run = (.ok change, e.applied host content w) ∧
    ((∃ detail, change = .converged detail) ↔ e.inserted content w.context.env ≠ [])
  inserts : e.inserted content w.context.env ≠ [] ↔ ∃ b ∈ e.bindings, e.holds? content w.context.env b.key = none
  keeps : ∀ key value, e.holds? content w.context.env key = some value →
    e.holds? (e.filled content w.context.env).1 (e.filled content w.context.env).2 key = some value
  /-- So do values that bindings of the edit itself have put there; in a file they take a line each. -/
  existing : (e.path ≠ none → ∀ b ∈ e.bindings, b.Single) → ∀ c ∈ e.conflicts content w.context.env,
    e.holds? (e.filled content w.context.env).1 (e.filled content w.context.env).2 c.key = some c.existing

theorem refuses {w : World σ} (inserting : e.replace = none) (found : e.found host w = .ok content)
    (policy : e.policy w = .fail) {c : Conflict} {rest : List Conflict}
    (conflicts : e.conflicts content w.context.env = c :: rest) : e.Refuses host w c := by
  have surveyed := run_survey found
  rw [policy, conflicts] at surveyed
  constructor
  · rw [check_eq inserting, World.try_bind, surveyed]
  · rw [apply_eq inserting, World.try_bind, surveyed]

theorem putsUp {w : World σ} (inserting : e.replace = none) (accessible : e.Accessible host w content)
    (policy : e.policy w = .warn) : e.PutsUp host w content := by
  have surveyed := run_survey accessible.found
  rw [policy] at surveyed
  refine ⟨?_, ?_, e.inserted_ne_nil_iff content w.context.env, fun key value => e.filled_keeps content w.context.env,
    e.filled_conflicts content w.context.env⟩
  · rw [check_eq inserting, World.try_bind, surveyed]
    dsimp only
    split <;> exact ⟨_, rfl⟩
  · have changed := e.account_isChanged content w.context.env
    have acted : w.run (e.apply host).run = World.run (e.noted host content w) (do
        let r ← e.insert host
        if r.isChanged then return .converged (e.describeInsertion r)
        return .unchanged : Action σ Change).run := by
      rw [apply_eq inserting, World.try_bind, surveyed]
    rw [acted, World.try_bind, run_insert accessible]
    dsimp only
    by_cases insertion : (e.account content w.context.env).isChanged = true
    · rw [if_pos insertion]
      exact ⟨_, rfl, iff_of_true ⟨_, rfl⟩ (changed.mp insertion)⟩
    · rw [if_neg insertion]
      exact ⟨_, rfl, iff_of_false (by simp) fun filled => insertion (changed.mpr filled)⟩

def warnings (host : Host σ) (default : ConflictPolicy) (w : World σ) (e : LineEdit) : List String :=
  match e.replace, e.onConflict.getD default, e.found host w with
  | none, .warn, .ok content => (e.conflicts content w.context.env).map (·.warning e.targetName)
  | _, _, _ => []

end LineEdit

theorem World.warnings_bind {β : Type} {x : Action σ α} {f : α → Action σ β} (w : World σ)
    (rest : ∀ a (v : World σ), (v.run (f a).run).2.context.warnings = v.context.warnings) :
    (w.run (x >>= f).run).2.context.warnings = (w.run x.run).2.context.warnings := by
  rw [World.try_bind]
  rcases w.run x.run with ⟨e | a, next⟩
  · rfl
  · exact rest a next

namespace LineEdit

variable {e : LineEdit}

theorem survey_warnings (inserting : e.replace = none) (w : World σ) :
    (w.run (e.survey host).run).2.context.warnings =
      w.context.warnings ++ e.warnings host w.context.onConflict w := by
  unfold warnings
  rw [inserting]
  cases looked : e.found host w with
  | error fault =>
    rw [survey, World.try_bind, run_preview, looked]
    cases e.onConflict.getD w.context.onConflict <;> exact (List.append_nil _).symm
  | ok content =>
    have policy : e.onConflict.getD w.context.onConflict = e.policy w := rfl
    rw [run_survey looked, policy]
    cases e.policy w with
    | warn => rfl
    | fail => cases e.conflicts content w.context.env <;> exact (List.append_nil _).symm

theorem check_warnings (inserting : e.replace = none) (w : World σ) :
    (w.run (e.check host).run).2.context.warnings =
      w.context.warnings ++ e.warnings host w.context.onConflict w := by
  rw [check_eq inserting, World.warnings_bind, survey_warnings inserting]
  intro r v
  split <;> rfl

theorem apply_warnings (inserting : e.replace = none) (w : World σ) :
    (w.run (e.apply host).run).2.context.warnings =
      w.context.warnings ++ e.warnings host w.context.onConflict w := by
  have inserted (v : World σ) : (v.run (e.insert host).run).2.context.warnings = v.context.warnings := by
    cases here : e.path with
    | none =>
      unfold insert
      rw [here]
      rfl
    | some path => rw [(insert_bare host here).context v]
  rw [apply_eq inserting, World.warnings_bind, survey_warnings inserting]
  intro _ v
  rw [World.warnings_bind, inserted]
  intro r v
  split <;> rfl

end LineEdit

namespace Spec

def warnings (host : Host σ) (default : ConflictPolicy) (w : World σ) : Spec → List String
  | .lineEdit e => e.warnings host default w
  | _ => []

theorem warnings_of_bindsNothing {spec : Spec} (bindsNothing : spec.BindsNothing) (default : ConflictPolicy)
    (w : World σ) : spec.warnings host default w = [] := by
  cases spec with
  | lineEdit e =>
    obtain ⟨r, replacing⟩ := Option.ne_none_iff_exists'.mp (bindsNothing e rfl)
    simp [warnings, LineEdit.warnings, replacing]
  | _ => rfl

theorem binds {spec : Spec} (binding : ¬ spec.BindsNothing) : ∃ e, spec = .lineEdit e ∧ e.replace = none := by
  unfold BindsNothing at binding
  simpa using binding

theorem check_warnings (spec : Spec) (name : String) (w : World σ) :
    (w.run (spec.check host name).run).2.context.warnings =
      w.context.warnings ++ spec.warnings host w.context.onConflict w := by
  by_cases bindsNothing : spec.BindsNothing
  · rw [(check_bare host bindsNothing name).context w, warnings_of_bindsNothing bindsNothing, List.append_nil]
  · obtain ⟨e, rfl, inserting⟩ := binds bindsNothing
    exact LineEdit.check_warnings inserting w

theorem apply_warnings (spec : Spec) (name : String) (w : World σ) :
    (w.run (spec.apply host name).run).2.context.warnings =
      w.context.warnings ++ spec.warnings host w.context.onConflict w := by
  by_cases bindsNothing : spec.BindsNothing
  · rw [(apply_bare host bindsNothing name).context w, warnings_of_bindsNothing bindsNothing, List.append_nil]
  · obtain ⟨e, rfl, inserting⟩ := binds bindsNothing
    exact LineEdit.apply_warnings inserting w

end Spec

namespace Converge

variable {opts : RunOptions}

def ownWarnings (host : Host σ) (opts : RunOptions) (r : Resource) (w : World σ) : List String :=
  match (w.run (verdictOf host opts r)).1 with
  | .ok .permit => r.spec.warnings host opts.onConflict (w.run (verdictOf host opts r)).2
  | _ => []

theorem concluded_warnings (r : Resource) (w : World σ) (verdict : Except Error Verdict) :
    (concluded host r w verdict).2.context.warnings = w.context.warnings ++
      match verdict with
      | .ok .permit => r.spec.warnings host w.context.onConflict w
      | _ => [] := by
  rcases verdict with e | _ | reason
  · exact (List.append_nil _).symm
  · unfold concluded
    dsimp only
    split
    · exact r.spec.check_warnings r.name (told r .guardChecked w)
    · exact r.spec.apply_warnings r.name (told r .applying (told r .guardChecked w))
  · exact (List.append_nil _).symm

theorem oneResource_warnings (r : Resource) {w : World σ} (policy : w.context.onConflict = opts.onConflict) :
    (w.run (oneResource host opts r)).1.warnings = ownWarnings host opts r (opened r w) := by
  have guarded : ((opened r w).run (verdictOf host opts r)).2.context = (opened r w).context := by
    rw [run_verdictOf]
    rfl
  have before : (opened r w).context.warnings = [] := rfl
  have onConflict : (opened r w).context.onConflict = opts.onConflict := policy
  rw [run_oneResource, run_resourceOutcome]
  dsimp only
  rw [concluded_warnings, guarded, before, onConflict, List.nil_append]
  rfl

theorem inTurn_steady (rs : List Resource) (w : World σ) :
    w.context.Steady (inTurn host opts w rs).context := by
  induction rs generalizing w with
  | nil => exact .refl _
  | cons r rest ih => exact ((oneResource_acts host opts r).makes w).context.trans (ih _)

end Converge

open Converge in
/-- Conflicts keep an edit from doing anything, or are put up with. The warnings in a report are those of its own
resource. -/
theorem conflicts_all_or_nothing (host : Host σ) :
    (∀ e (w : World σ) content, e.replace = none → LineEdit.Accessible host w e content →
      (e.policy w = .fail → ∀ c rest, e.conflicts content w.context.env = c :: rest → e.Refuses host w c) ∧
      (e.policy w = .warn → e.PutsUp host w content)) ∧
    ∀ opts l (w : World σ) report last, w.run (converge host l opts).run = (.ok report, last) →
      ∀ i r x, l.resources[i]? = some r → report.resources[i]? = some x →
        x.warnings = ownWarnings host opts r
          (opened r (inTurn host opts (entered opts l w) (l.resources.take i))) := by
  constructor
  · intro e w content inserting accessible
    refine ⟨fun policy c rest conflicts => ?_, fun policy => ?_⟩
    · exact LineEdit.refuses inserting accessible.found policy conflicts
    · exact LineEdit.putsUp inserting accessible policy
  · intro opts l w report last ran i r x declared reported
    rw [reports_getElem? ran declared reported]
    exact oneResource_warnings r (inTurn_steady _ _).onConflict

def shadowed : LineEdit :=
  { path := some "/etc/environment", bindings := [⟨"A", "new"⟩, ⟨"B", "1"⟩, ⟨"B", "2"⟩] }

def shadowedWorld (onConflict : ConflictPolicy) : World Machine where
  machine := { Machine.empty with files := [("/etc/environment", { content := "A=\"old\"" })] }
  context := ⟨false, false, .empty, .object [], onConflict, []⟩
  calls := []
  events := []

theorem conflicts_all_or_nothing_shadowed :
    shadowed.conflicts "A=\"old\"" .empty = [⟨"A", "old", "new"⟩, ⟨"B", "1", "2"⟩] ∧
      shadowed.filled "A=\"old\"" .empty = ("A=\"old\"\nB=\"1\"\n", .empty) ∧
      shadowed.Refuses Machine.host (shadowedWorld .fail) ⟨"A", "old", "new"⟩ ∧
      shadowed.PutsUp Machine.host (shadowedWorld .warn) "A=\"old\"" := by
  have accessible (onConflict : ConflictPolicy) :
      shadowed.Accessible Machine.host (shadowedWorld onConflict) "A=\"old\"" := by
    refine ⟨rfl, rfl, ?_⟩
    rintro path ⟨⟩ text
    rfl
  have conflicts : shadowed.conflicts "A=\"old\"" .empty = [⟨"A", "old", "new"⟩, ⟨"B", "1", "2"⟩] := by decide +kernel
  have filled : shadowed.filled "A=\"old\"" .empty = ("A=\"old\"\nB=\"1\"\n", .empty) := by decide +kernel
  have both (onConflict : ConflictPolicy) := (conflicts_all_or_nothing Machine.host).1 shadowed
    (shadowedWorld onConflict) "A=\"old\"" rfl (accessible onConflict)
  exact ⟨conflicts, filled, (both .fail).1 rfl _ _ conflicts, (both .warn).2 rfl⟩

end Provision
