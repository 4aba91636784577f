import Provision.Proofs.Verdicts

namespace Provision

variable {σ α β : Type} {host : Host σ}

/-- The step tells no progress. An error of it, and the world that it failed in, are of `E`. -/
structure Confined (E : Error → World σ → Prop) (x : Action σ α) : Prop where
  events : ∀ w : World σ, (w.run x.run).2.events = w.events
  error : ∀ (w : World σ) e, (w.run x.run).1 = .error e → E e (w.run x.run).2

namespace Confined

variable {E F : Error → World σ → Prop}

theorem mono {x : Action σ α} (confined : Confined E x) (weaker : ∀ e w, E e w → F e w) : Confined F x :=
  ⟨confined.events, fun w e failed => weaker e _ (confined.error w e failed)⟩

theorem pure (a : α) : Confined E (Pure.pure a : Action σ α) := ⟨fun _ => rfl, nofun⟩

theorem throw {e : Error} (known : ∀ w, E e w) : Confined E (throw e : Action σ α) := by
  refine ⟨fun _ => rfl, ?_⟩
  rintro w _ ⟨⟩
  exact known w

theorem bind {x : Action σ α} {f : α → Action σ β} (first : Confined E x) (rest : ∀ a, Confined E (f a)) :
    Confined E (x >>= f) := by
  constructor
  · intro w
    have silent := first.events w
    rw [World.try_bind]
    rcases ran : w.run x.run with ⟨e | a, next⟩
    · rwa [ran] at silent
    · rw [ran] at silent
      exact ((rest a).events next).trans silent
  · intro w e
    have known := first.error w e
    rw [World.try_bind]
    rcases ran : w.run x.run with ⟨d | a, next⟩
    · rw [ran] at known
      rintro ⟨⟩
      exact known rfl
    · exact (rest a).error next e

theorem lift {x : StateM (World σ) α} (silent : ∀ w : World σ, (w.run x).2.events = w.events) :
    Confined E (liftM x : Action σ α) :=
  ⟨silent, nofun⟩

theorem except {x : Except Error α} (fine : ∀ e, x ≠ .error e) : Confined E (liftM x : Action σ α) := by
  cases x with
  | error e => exact absurd rfl (fine e)
  | ok a => exact pure a

theorem tryContext : Confined E (Action.getContext (σ := σ)) := ⟨fun _ => rfl, nofun⟩

theorem tryModify (f : Context → Context) : Confined E (Action.modifyContext (σ := σ) f) :=
  ⟨fun _ => rfl, nofun⟩

theorem reply {x : StateM (World σ) (Except Fault α)} (silent : ∀ w : World σ, (w.run x).2.events = w.events)
    (faults : ∀ (w : World σ) fault, (w.run x).1 = .error fault → E (.collaborator fault) (w.run x).2) :
    Confined E (Action.ofReply x) := by
  refine ⟨silent, fun w e failed => ?_⟩
  rw [World.try_ofReply] at failed
  cases answered : (w.run x).1 with
  | ok a =>
    rw [answered] at failed
    cases failed
  | error fault =>
    rw [answered] at failed
    cases failed
    exact faults w fault answered

end Confined

/-- An action failed, or bindings conflict. -/
def Error.Operational (e : Error) : Prop := e.category = .actionFailed ∨ e.category = .propagationConflict

theorem Error.Operational.not_fatalBeforeRun {e : Error} (operational : e.Operational) :
    e.category.isFatalBeforeRun = false := by
  rcases operational with failed | conflict
  · rw [failed]
    rfl
  · rw [conflict]
    rfl

abbrev Operates (x : Action σ α) : Prop := Confined (fun e _ => e.Operational) x

section

open Confined

theorem Operates.asked {x : StateM (World σ) (Except Fault α)}
    (silent : ∀ w : World σ, (w.run x).2.events = w.events) : Operates (Action.ofReply x) :=
  reply silent fun _ _ _ => Or.inl rfl

open Operates

variable (host)

theorem Package.check_operates (p : Package) : Operates (p.check host) := by
  refine bind (asked fun _ => rfl) fun installed => ?_
  split
  · exact pure _
  · split <;> exact pure _

theorem Package.apply_operates (p : Package) : Operates (p.apply host) := by
  refine bind (asked fun _ => rfl) fun installed => ?_
  split
  · exact pure _
  · exact bind (asked fun _ => rfl) fun _ => bind (asked fun _ => rfl) fun _ => pure _

theorem Command.alreadyCreated_operates (k : Command) : Operates (k.alreadyCreated host) := by
  unfold Command.alreadyCreated
  split
  · exact pure _
  · exact lift fun _ => rfl

theorem Command.check_operates (k : Command) : Operates (k.check host) := by
  refine bind (k.alreadyCreated_operates host) fun created => ?_
  split <;> exact pure _

theorem Command.apply_operates (k : Command) : Operates (k.apply host) := by
  refine bind (k.alreadyCreated_operates host) fun created => ?_
  split
  · exact pure _
  · refine bind (asked fun _ => rfl) fun output => ?_
    split
    · exact pure _
    · exact throw fun _ => Or.inl rfl

theorem LineEdit.replacement_of_fit {e : LineEdit} {r : LineReplacement} (fit : e.problem? = none)
    (replacing : e.replace = some r) : ∃ path p, e.path = some path ∧ Pattern.parse r.pattern = .ok p := by
  unfold LineEdit.problem? at fit
  rw [replacing] at fit
  cases located : e.path with
  | none => simp [located] at fit
  | some path =>
    cases parsed : Pattern.parse r.pattern with
    | ok p => exact ⟨path, p, rfl, rfl⟩
    | error m =>
      simp only [located, parsed] at fit
      split at fit
      · cases fit
      · split at fit <;> cases fit

/-- The last call of the world was to read or to write the file, and the system refused it. -/
inductive Host.Refused (host : Host σ) (path : String) (fault : Fault) : World σ → Prop
  | read (w : World σ) (refused : (host.answer (.read path) w.machine).1 = .error fault) :
    Refused host path fault (w.after host (.read path))
  | write (w : World σ) (text : String) (refused : (host.answer (.write path text) w.machine).1 = .error fault) :
    Refused host path fault (w.after host (.write path text))

def LineEdit.FileError (host : Host σ) (path : String) (e : Error) (last : World σ) : Prop :=
  ∃ fault, e = .collaborator fault ∧ host.Refused path fault last

theorem LineEdit.FileError.operational {path : String} {e : Error} {last : World σ}
    (failed : FileError host path e last) : e.Operational := by
  obtain ⟨fault, rfl, -⟩ := failed
  exact Or.inl rfl

theorem LineEdit.read_confined (path : String) :
    Confined (FileError host path) (Action.ofReply (perform host (.read path))) :=
  reply (fun _ => rfl) fun w fault refused => ⟨fault, rfl, .read w refused⟩

theorem LineEdit.write_confined (path text : String) :
    Confined (FileError host path) (Action.ofReply (perform host (.write path text))) :=
  reply (fun _ => rfl) fun w fault refused => ⟨fault, rfl, .write w text refused⟩

theorem LineEdit.pattern_confined {E : Error → World σ → Prop} {text : String} {p : Pattern}
    (parsed : Pattern.parse text = .ok p) : Confined E (liftM (parsePattern text) : Action σ Pattern) := by
  refine except fun e failed => ?_
  rw [parsePattern, parsed] at failed
  cases failed

section

variable {e : LineEdit} {r : LineReplacement} {path : String} {p : Pattern}
variable (replacing : e.replace = some r) (here : e.path = some path) (parsed : Pattern.parse r.pattern = .ok p)

include replacing here parsed

theorem LineEdit.check_confined : Confined (FileError host path) (e.check host) := by
  rw [LineEdit.check, replacing]
  dsimp only
  rw [LineEdit.checkReplace, here]
  refine bind (pattern_confined parsed) fun p => ?_
  refine bind (bind (read_confined host path) fun _ => pure _) fun content => ?_
  split <;> exact pure _

theorem LineEdit.apply_confined : Confined (FileError host path) (e.apply host) := by
  rw [LineEdit.apply, replacing]
  dsimp only
  rw [LineEdit.applyReplace, here]
  refine bind (pattern_confined parsed) fun p => ?_
  refine bind (read_confined host path) fun content => ?_
  split
  · exact pure _
  · exact bind (write_confined host path _) fun _ => pure _

end

theorem LineEdit.settle_operates (e : LineEdit) (r : Insertion) : Operates (e.settle (σ := σ) r) := by
  refine bind tryContext fun context => ?_
  split
  · exact throw fun _ => Or.inr rfl
  · exact pure _
  · exact tryModify _

theorem LineEdit.preview_operates (e : LineEdit) : Operates (e.preview host) := by
  unfold LineEdit.preview
  split
  · exact bind (bind (asked fun _ => rfl) fun _ => pure _) fun _ => pure _
  · exact bind tryContext fun _ => pure _

theorem LineEdit.insert_operates (e : LineEdit) : Operates (e.insert host) := by
  unfold LineEdit.insert
  split
  · refine bind (bind (asked fun _ => rfl) fun _ => pure _) fun content => ?_
    dsimp only
    split
    · exact bind (asked fun _ => rfl) fun _ => pure _
    · exact pure _
  · exact bind tryContext fun _ => bind (tryModify _) fun _ => pure _

theorem LineEdit.check_operates {e : LineEdit} (fit : e.problem? = none) : Operates (e.check host) := by
  cases replacing : e.replace with
  | some r =>
    obtain ⟨path, p, here, parsed⟩ := replacement_of_fit fit replacing
    exact (check_confined host replacing here parsed).mono fun _ _ => FileError.operational host
  | none =>
    rw [LineEdit.check, replacing]
    refine bind (e.preview_operates host) fun r => bind (e.settle_operates r) fun _ => ?_
    split <;> exact pure _

theorem LineEdit.apply_operates {e : LineEdit} (fit : e.problem? = none) : Operates (e.apply host) := by
  cases replacing : e.replace with
  | some r =>
    obtain ⟨path, p, here, parsed⟩ := replacement_of_fit fit replacing
    exact (apply_confined host replacing here parsed).mono fun _ _ => FileError.operational host
  | none =>
    rw [LineEdit.apply, replacing]
    refine bind (e.preview_operates host) fun previewed => bind (e.settle_operates previewed) fun _ => ?_
    refine bind (e.insert_operates host) fun r => ?_
    split <;> exact pure _

theorem Rendering.make_operates (path template : String) (context : Json) :
    Operates (make host path template context) :=
  bind (asked fun _ => rfl) fun _ => bind (asked fun _ => rfl) fun _ => pure _

theorem Rendering.write_operates (r : Rendering) : Operates (r.write host) := by
  unfold Rendering.write
  split
  · exact pure _
  · exact bind (asked fun _ => rfl) fun _ => pure _

theorem WorkingCopy.check_operates (w : WorkingCopy) : Operates (w.check host) := by
  refine bind (asked fun _ => rfl) fun current => ?_
  split
  · exact pure _
  · split <;> exact pure _

theorem WorkingCopy.apply_operates (w : WorkingCopy) : Operates (w.apply host) := by
  refine bind (asked fun _ => rfl) fun before => ?_
  split
  · exact pure _
  · refine bind (asked fun _ => rfl) fun after => ?_
    split <;> exact pure _

theorem ScheduledJob.installed_operates (j : ScheduledJob) (name : String) :
    Operates (j.installed host name) :=
  bind (asked fun _ => rfl) fun _ => pure _

theorem ScheduledJob.check_operates (j : ScheduledJob) (name : String) : Operates (j.check host name) := by
  refine bind (j.installed_operates host name) fun found => ?_
  split
  · split <;> exact pure _
  · exact pure _

theorem ScheduledJob.apply_operates (j : ScheduledJob) (name : String) : Operates (j.apply host name) := by
  refine bind (j.installed_operates host name) fun found => ?_
  split
  · exact pure _
  · exact bind (asked fun _ => rfl) fun _ => pure _

theorem Site.render_operates (s : Site) (name : String) : Operates (s.render host name) :=
  bind tryContext fun _ => Rendering.make_operates host _ _ _

theorem Site.linkState_operates (s : Site) (name : String) : Operates (s.linkState host name) := by
  refine bind (asked fun _ => rfl) fun found => ?_
  split <;> exact pure _

theorem Site.settleLink_operates (s : Site) (name : String) (state : LinkState) :
    Operates (s.settleLink host name state) := by
  unfold Site.settleLink
  dsimp only
  split
  · exact pure _
  · exact pure _
  · exact bind (asked fun _ => rfl) fun _ => pure _
  · exact bind (asked fun _ => rfl) fun _ => bind (asked fun _ => rfl) fun _ => pure _
  · exact bind (asked fun _ => rfl) fun _ => pure _

theorem Site.check_operates (s : Site) (name : String) : Operates (s.check host name) := by
  refine bind (s.render_operates host name) fun r => bind (s.linkState_operates host name) fun state => ?_
  cases r.drift <;> (dsimp only; split <;> exact pure _)

theorem Site.apply_operates (s : Site) (name : String) : Operates (s.apply host name) := by
  refine bind (s.render_operates host name) fun r => bind (r.write_operates host) fun written => ?_
  refine bind (s.linkState_operates host name) fun state => ?_
  refine bind (s.settleLink_operates host name state) fun linked => ?_
  cases written <;> (dsimp only; split <;> exact pure _)

theorem Ownership.check_operates (o : Ownership) : Operates (o.check host) := by
  refine bind (asked fun _ => rfl) fun owner => ?_
  split
  · split <;> exact pure _
  · exact pure _

theorem Ownership.apply_operates (o : Ownership) : Operates (o.apply host) :=
  bind (asked fun _ => rfl) fun _ => pure _

theorem Spec.check_operates {spec : Spec} (fit : spec.problem? = none) (name : String) :
    Operates (spec.check host name) := by
  cases spec with
  | package p => exact p.check_operates host
  | command k => exact k.check_operates host
  | lineEdit e => exact LineEdit.check_operates host fit
  | renderedFile f => exact bind (bind tryContext fun _ => Rendering.make_operates host _ _ _) fun _ => pure _
  | workingCopy w => exact w.check_operates host
  | scheduledJob j => exact j.check_operates host name
  | site s => exact s.check_operates host name
  | ownership o => exact o.check_operates host

theorem Spec.apply_operates {spec : Spec} (fit : spec.problem? = none) (name : String) :
    Operates (spec.apply host name) := by
  cases spec with
  | package p => exact p.apply_operates host
  | command k => exact k.apply_operates host
  | lineEdit e => exact LineEdit.apply_operates host fit
  | renderedFile f =>
    exact bind (bind tryContext fun _ => Rendering.make_operates host _ _ _) fun r => r.write_operates host
  | workingCopy w => exact w.apply_operates host
  | scheduledJob j => exact j.apply_operates host name
  | site s => exact s.apply_operates host name
  | ownership o => exact o.apply_operates host

end

namespace Converge

variable {opts : RunOptions}

def verdictAt (host : Host σ) (opts : RunOptions) (l : RunList) (w : World σ) (i : Nat) (r : Resource) :
    Except Error Verdict :=
  ((opened r (inTurn host opts (entered opts l w) (l.resources.take i))).run (verdictOf host opts r)).1

theorem oneResource_failed {E : Error → World σ → Prop} {r : Resource}
    (checked : Confined E (r.spec.check host r.name)) (applied : Confined E (r.spec.apply host r.name)) {w : World σ}
    {cause : String} {category : Category}
    (failed : (w.run (oneResource host opts r)).1.outcome = .failed cause category) :
    (∃ e, ((opened r w).run (verdictOf host opts r)).1 = .error e ∧ cause = e.message ∧
      category = .guardEvaluation) ∨
      ∃ e last, E e last ∧ cause = e.message ∧ category = e.category ∧
        (w.run (oneResource host opts r)).2 = closed r (.failed cause category) last := by
  rw [run_oneResource, run_resourceOutcome] at failed ⊢
  dsimp only at failed ⊢
  rw [failed]
  rcases verdict : (opened r w).run (verdictOf host opts r) with ⟨e | _ | reason, next⟩
  · rw [verdict] at failed
    cases failed
    exact Or.inl ⟨e, rfl, rfl, verdictOf_error (congrArg Prod.fst verdict)⟩
  · -- With leave, only an error of the check or of the action makes the resource fail.
    rw [verdict] at failed
    refine Or.inr ?_
    by_cases dry : next.context.dryRun = true
    · simp only [concluded, dry, ↓reduceIte] at failed ⊢
      cases seen : ((told r .guardChecked next).run (r.spec.check host r.name).run).1 with
      | error e =>
        rw [seen] at failed
        cases failed
        exact ⟨e, _, checked.error _ e seen, rfl, rfl, rfl⟩
      | ok drift =>
        rw [seen] at failed
        cases drift <;> cases failed
    · simp only [concluded, dry, Bool.false_eq_true, ↓reduceIte] at failed ⊢
      cases done : ((told r .applying (told r .guardChecked next)).run (r.spec.apply host r.name).run).1 with
      | error e =>
        rw [done] at failed
        cases failed
        exact ⟨e, _, applied.error _ e done, rfl, rfl, rfl⟩
      | ok change =>
        rw [done] at failed
        cases change <;> cases failed
  · rw [verdict] at failed
    cases failed

theorem oneResource_not_fatalBeforeRun {r : Resource} (fit : r.spec.problem? = none) {w : World σ} {cause : String}
    {category : Category} (failed : (w.run (oneResource host opts r)).1.outcome = .failed cause category) :
    category.isFatalBeforeRun = false := by
  rcases oneResource_failed (Spec.check_operates host fit r.name) (Spec.apply_operates host fit r.name) failed with
    ⟨-, -, -, rfl⟩ | ⟨e, -, operational, -, rfl, -⟩
  · rfl
  · exact operational.not_fatalBeforeRun

theorem declared_of_reported {l : RunList} {w last : World σ} {report : RunReport}
    (ran : w.run (converge host l opts).run = (.ok report, last)) {i : Nat} {x : ResourceReport}
    (reported : report.resources[i]? = some x) : ∃ r, l.resources[i]? = some r := by
  obtain ⟨-, rfl, -⟩ := converge_eq_ok ran
  obtain ⟨bound, -⟩ := List.getElem?_eq_some_iff.mp reported
  have walk : Walk host opts _ _ _ _ := walked_walk l w
  exact ⟨_, List.getElem?_eq_getElem (Nat.lt_of_lt_of_le bound walk.reached)⟩

end Converge

open Converge in
/-- No resource of a run fails with an error that should have kept the run from its start. A replacement has its file
and its pattern; where it fails, its guards could not be evaluated, or the last thing it did was to read or to write
the file, and the system refused. -/
theorem outcomes_not_fatalBeforeRun (host : Host σ) {opts : RunOptions} {l : RunList} {w last : World σ}
    {report : RunReport} (ran : w.run (converge host l opts).run = (.ok report, last)) :
    (∀ x ∈ report.resources, ∀ cause category, x.outcome = .failed cause category →
      category.isFatalBeforeRun = false) ∧
    ∀ i r x e s, l.resources[i]? = some r → report.resources[i]? = some x → r.spec = .lineEdit e →
      e.replace = some s → ∃ path p, e.path = some path ∧ Pattern.parse s.pattern = .ok p ∧
        ∀ cause category, x.outcome = .failed cause category →
          (∃ d, verdictAt host opts l w i r = .error d ∧ cause = d.message ∧ category = .guardEvaluation) ∨
          ∃ fault refused, host.Refused path fault refused ∧ cause = fault.message ∧ category = .actionFailed ∧
            inTurn host opts (entered opts l w) (l.resources.take (i + 1)) = closed r x.outcome refused := by
  obtain ⟨valid, -, -⟩ := converge_eq_ok ran
  constructor
  · intro x member cause category failed
    obtain ⟨i, reported⟩ := List.mem_iff_getElem?.mp member
    obtain ⟨r, declared⟩ := declared_of_reported ran reported
    rw [reports_getElem? ran declared reported] at failed
    exact oneResource_not_fatalBeforeRun (RunList.fit_of_valid valid r (List.mem_of_getElem? declared)) failed
  · intro i r x e s declared reported isEdit replacing
    have fit := RunList.fit_of_valid valid r (List.mem_of_getElem? declared)
    rw [isEdit] at fit
    obtain ⟨path, p, here, parsed⟩ := LineEdit.replacement_of_fit fit replacing
    refine ⟨path, p, here, parsed, fun cause category failed => ?_⟩
    have checked : Confined (LineEdit.FileError host path) (r.spec.check host r.name) := by
      rw [isEdit]
      exact LineEdit.check_confined host replacing here parsed
    have applied : Confined (LineEdit.FileError host path) (r.spec.apply host r.name) := by
      rw [isEdit]
      exact LineEdit.apply_confined host replacing here parsed
    rw [failed, inTurn_succ declared]
    rw [reports_getElem? ran declared reported] at failed
    refine (oneResource_failed checked applied failed).imp_right ?_
    rintro ⟨_, refused, ⟨fault, rfl, refusal⟩, wording, known, left⟩
    exact ⟨fault, refused, refusal, wording, known, left⟩

def listenEdit : LineEdit := { path := some "/conf", replace := some ⟨"^port", "port 80"⟩ }

def listenList : RunList := ⟨[.ofResource { name := "port", spec := .lineEdit listenEdit } []]⟩

def unreadableWorld : World Machine where
  machine := { Machine.empty with failures := [("read /conf", .ofText "input/output error")] }
  context := ⟨false, false, .empty, .object [], .warn, []⟩
  calls := []
  events := []

open Converge in
theorem outcomes_not_fatalBeforeRun_unreadable :
    ∃ report last x, unreadableWorld.run (converge Machine.host listenList {}).run = (.ok report, last) ∧
      report.resources = [x] ∧ x.outcome = .failed "input/output error" .actionFailed ∧
      Category.actionFailed.isFatalBeforeRun = false ∧
      ∃ fault refused, Machine.host.Refused "/conf" fault refused ∧ fault.message = "input/output error" := by
  have valid : listenList.validate .perKind = .ok () := by rfl
  have ran : unreadableWorld.run (converge Machine.host listenList {}).run = (.ok _, _) :=
    converge_of_valid valid unreadableWorld
  obtain ⟨sound, replacements⟩ := outcomes_not_fatalBeforeRun Machine.host ran
  refine ⟨_, _, _, ran, rfl, rfl, sound _ List.mem_cons_self "input/output error" _ rfl, ?_⟩
  obtain ⟨path, p, here, -, failures⟩ := replacements 0 _ _ listenEdit _ rfl rfl rfl rfl
  cases here
  rcases failures "input/output error" .actionFailed rfl with
    ⟨-, -, -, guards⟩ | ⟨fault, refused, refusal, wording, -⟩
  · cases guards
  · exact ⟨fault, refused, refusal, wording.symm⟩

end Provision
