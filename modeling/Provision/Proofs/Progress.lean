import Provision.Proofs.Conflicts
import Provision.Proofs.DueCommands
import Provision.Proofs.Failures

namespace Provision

variable {σ : Type} {host : Host σ}

def Outcome.phases (dryRun : Bool) : Outcome → List Phase
  | .failed _ .guardEvaluation => []
  | .skipped _ => [.guardChecked]
  | _ => if dryRun then [.guardChecked] else [.guardChecked, .applying]

/-- How a resource gets from the verdict of its guards to its outcome. -/
inductive Passage (dryRun : Bool) : Except Error Verdict → List Phase → Outcome → Prop
  | unguarded (e : Error) : Passage dryRun (.error e) [] (.failed e.message .guardEvaluation)
  | blocked (reason : String) : Passage dryRun (.ok (.block reason)) [.guardChecked] (.skipped reason)
  | checked (outcome : Outcome) (dry : dryRun = true) (noChange : ∀ detail, outcome ≠ .converged detail)
      (guarded : ∀ cause, outcome ≠ .failed cause .guardEvaluation) :
    Passage dryRun (.ok .permit) [.guardChecked] outcome
  | applied (outcome : Outcome) (real : dryRun = false) (notSkipped : ∀ reason, outcome ≠ .skipped reason)
      (guarded : ∀ cause, outcome ≠ .failed cause .guardEvaluation) :
    Passage dryRun (.ok .permit) [.guardChecked, .applying] outcome

namespace Passage

variable {dryRun : Bool} {verdict : Except Error Verdict} {phases : List Phase} {outcome : Outcome}

theorem silent_iff (passage : Passage dryRun verdict phases outcome) : phases = [] ↔ ∃ e, verdict = .error e := by
  cases passage <;> simp

theorem applying_iff (passage : Passage dryRun verdict phases outcome) :
    .applying ∈ phases ↔ verdict = .ok .permit ∧ dryRun = false := by
  cases passage with
  | unguarded e => simp
  | blocked reason => simp
  | checked _ dry => simp [dry]
  | applied _ real => simp [real]

/-- In a dry run a resource that its guards let pass is checked; in a real one a resource is not applied only where it
is skipped or its guards failed. So the phases can be told from the outcome. -/
theorem phases_eq (passage : Passage dryRun verdict phases outcome) : phases = outcome.phases dryRun := by
  cases passage with
  | unguarded e => rfl
  | blocked reason => rfl
  | checked _ dry noChange guarded =>
    cases outcome with
    | unchanged => simp [Outcome.phases, dry]
    | converged detail => exact absurd rfl (noChange detail)
    | skipped reason => rfl
    | failed cause category =>
      cases category with
      | guardEvaluation => exact absurd rfl (guarded cause)
      | _ => simp [Outcome.phases, dry]
  | applied _ real notSkipped guarded =>
    cases outcome with
    | unchanged => simp [Outcome.phases, real]
    | converged detail => simp [Outcome.phases, real]
    | skipped reason => exact absurd rfl (notSkipped reason)
    | failed cause category =>
      cases category with
      | guardEvaluation => exact absurd rfl (guarded cause)
      | _ => simp [Outcome.phases, real]

end Passage

/-- What a resource tells: that it starts, its phases, and its outcome. -/
def Resource.story (r : Resource) (phases : List Phase) (outcome : Outcome) : List Event :=
  .start r.id r.describe :: phases.map (.phase r.id) ++ [.complete r.id outcome]

def RunReport.stories (report : RunReport) (resources : List Resource) : List Event :=
  (resources.zip report.resources).flatMap fun (r, x) => r.story (x.outcome.phases report.dryRun) x.outcome

theorem Error.Operational.not_guardEvaluation {e : Error} (operational : e.Operational) :
    e.category ≠ .guardEvaluation := by
  rcases operational with failed | conflict
  · rw [failed]
    nofun
  · rw [conflict]
    nofun

theorem Outcome.ofError_ne {e : Error} (operational : e.Operational) (cause : String) :
    ofError e ≠ .failed cause .guardEvaluation :=
  fun same => operational.not_guardEvaluation (by injection same)

namespace Converge

variable {opts : RunOptions}

theorem ofCheck_noChange (seen : Except Error Drift) (detail : String) : ofCheck seen ≠ .converged detail := by
  rcases seen with e | _ | change <;> nofun

theorem ofApply_notSkipped (done : Except Error Change) (reason : String) : ofApply done ≠ .skipped reason := by
  rcases done with e | _ | detail <;> nofun

theorem ofCheck_guarded {seen : Except Error Drift} (fine : ∀ e, seen = .error e → e.Operational) (cause : String) :
    ofCheck seen ≠ .failed cause .guardEvaluation := by
  rcases seen with e | _ | change
  · exact Outcome.ofError_ne (fine e rfl) cause
  · nofun
  · nofun

theorem ofApply_guarded {done : Except Error Change} (fine : ∀ e, done = .error e → e.Operational)
    (cause : String) :
    ofApply done ≠ .failed cause .guardEvaluation := by
  rcases done with e | _ | detail
  · exact Outcome.ofError_ne (fine e rfl) cause
  · nofun
  · nofun

theorem concluded_passage (host : Host σ) {r : Resource} (fit : r.spec.problem? = none) (w : World σ)
    {verdict : Except Error Verdict} (unclear : ∀ e, verdict = .error e → e.category = .guardEvaluation) :
    ∃ phases, Passage w.context.dryRun verdict phases (concluded host r w verdict).1 ∧
      (concluded host r w verdict).2.events = w.events ++ phases.map (.phase r.id) := by
  rcases verdict with e | _ | reason
  · refine ⟨[], ?_, (List.append_nil _).symm⟩
    have known := unclear e rfl
    rw [concluded, Outcome.ofError, known]
    exact .unguarded e
  · have checks := Spec.check_operates host fit r.name
    have applies := Spec.apply_operates host fit r.name
    by_cases dry : w.context.dryRun = true
    · simp only [concluded, dry, ↓reduceIte]
      exact ⟨_, .checked _ rfl (ofCheck_noChange _) (ofCheck_guarded (checks.error _)), checks.events _⟩
    · rw [Bool.not_eq_true] at dry
      simp only [concluded, dry, Bool.false_eq_true, ↓reduceIte]
      refine ⟨_, .applied _ rfl (ofApply_notSkipped _) (ofApply_guarded (applies.error _)), ?_⟩
      simp [applies.events, told]
  · exact ⟨_, .blocked reason, rfl⟩

variable (host opts) in
theorem oneResource_passage {r : Resource} (fit : r.spec.problem? = none) (w : World σ) :
    ∃ phases, Passage w.context.dryRun ((opened r w).run (verdictOf host opts r)).1 phases
        (w.run (oneResource host opts r)).1.outcome ∧
      (w.run (oneResource host opts r)).2.events =
        w.events ++ r.story phases (w.run (oneResource host opts r)).1.outcome := by
  have guarded : ((opened r w).run (verdictOf host opts r)).2 = _ := run_verdictOf r (opened r w)
  obtain ⟨phases, passage, events⟩ := concluded_passage host fit
    ((opened r w).run (verdictOf host opts r)).2 fun e failed => verdictOf_error failed
  rw [run_oneResource, run_resourceOutcome]
  rw [guarded] at passage events ⊢
  refine ⟨phases, passage, ?_⟩
  simp only [closed, events, Resource.story]
  simp [World.afterAll, opened]

theorem oneResource_steady (r : Resource) (w : World σ) :
    w.context.Steady (w.run (oneResource host opts r)).2.context :=
  ((oneResource_acts host opts r).makes w).context

theorem run_notifyAll (commands : List String) (w : World σ) :
    (w.run (notifyAll host commands)).2 = w.afterAll host
      ((w.run (notifyAll host commands)).1.map (.notification w.context.env ·.command)) := by
  induction commands generalizing w with
  | nil => exact w.afterAll_nil.symm
  | cons command rest ih =>
    rw [run_notifyAll_cons, run_notify]
    split
    · rw [ih]
      simp [World.afterAll, World.after, Host.leads, NotificationReport.ofReply_command]
    · simp [World.afterAll, World.after, Host.leads, NotificationReport.ofReply_command]

theorem eachResource_events {rs : List Resource} (fit : ∀ r ∈ rs, r.spec.problem? = none) (w : World σ) :
    (w.run (eachResource host opts rs)).2.events = w.events ++
      (rs.zip (w.run (eachResource host opts rs)).1).flatMap fun (r, x) =>
        r.story (x.outcome.phases w.context.dryRun) x.outcome := by
  induction rs generalizing w with
  | nil => simp [eachResource]
  | cons r rest ih =>
    obtain ⟨phases, passage, events⟩ := oneResource_passage host opts (fit r List.mem_cons_self) w
    rw [passage.phases_eq] at events
    rw [run_eachResource_cons]
    split
    · simp [events]
    · -- The run stays dry or real, and so the phases of the rest are told from the same mode.
      have later := ih (fun s member => fit s (List.mem_cons_of_mem r member)) (w.run (oneResource host opts r)).2
      rw [(oneResource_steady r w).dryRun, events] at later
      simp [later]

theorem notified_silent (l : RunList) (w : World σ) :
    (notified host opts l w).2.events = (walked host opts l w).2.events := by
  rcases notified_cases host opts l w with none | ran
  · rw [none]
  · rw [ran, run_notifyAll]
    rfl

theorem worldOf_events {l : RunList} (valid : l.validate opts.nameScope = .ok ()) (w : World σ) :
    (worldOf host opts l w).events = w.events ++ .runStart l.resources.length ::
      (reportOf host opts l w).stories l.resources ++ [.runComplete (reportOf host opts l w).state] := by
  have taken : (walked host opts l w).2.events = _ :=
    eachResource_events (RunList.fit_of_valid valid) (entered opts l w)
  change (notified host opts l w).2.events ++ _ = _
  rw [notified_silent, taken]
  simp [entered, enter, RunList.size, RunReport.stories, reportOf, walked]

theorem reported_id {l : RunList} {w last : World σ} {report : RunReport}
    (ran : w.run (converge host l opts).run = (.ok report, last)) {i : Nat} {r : Resource} {x : ResourceReport}
    (declared : l.resources[i]? = some r) (reported : report.resources[i]? = some x) : x.id = r.id := by
  rw [reports_getElem? ran declared reported, run_oneResource]
  rfl

end Converge

/-- What a run of a valid list from `w` that left `last` tells. -/
structure RunReport.Tells (host : Host σ) (opts : RunOptions) (l : RunList) (w : World σ) (report : RunReport)
    (last : World σ) : Prop where
  mode : report.dryRun = opts.dryRun
  reached : report.resources.length ≤ l.resources.length
  events : last.events = w.events ++ .runStart l.resources.length :: report.stories l.resources ++
    [.runComplete report.state]
  named : ∀ (i : Nat) (r : Resource) (x : ResourceReport), l.resources[i]? = some r →
    report.resources[i]? = some x → x.id = r.id
  passage : ∀ (i : Nat) (r : Resource) (x : ResourceReport), l.resources[i]? = some r →
    report.resources[i]? = some x →
      Passage opts.dryRun (Converge.verdictAt host opts l w i r) (x.outcome.phases report.dryRun) x.outcome
  /-- Nothing but guards that could not be evaluated keeps a resource from its phases. -/
  silent : ∀ (i : Nat) (r : Resource) (x : ResourceReport), l.resources[i]? = some r →
    report.resources[i]? = some x →
      (x.outcome.phases report.dryRun = [] ↔ ∃ e, Converge.verdictAt host opts l w i r = .error e)
  applied : ∀ (i : Nat) (r : Resource) (x : ResourceReport), l.resources[i]? = some r →
    report.resources[i]? = some x →
      (.applying ∈ x.outcome.phases report.dryRun ↔
        Converge.verdictAt host opts l w i r = .ok .permit ∧ opts.dryRun = false)
  neverDry : ∀ id, .phase id .applying ∈ report.stories l.resources → opts.dryRun = false

theorem RunReport.real_of_applying {report : RunReport} {resources : List Resource} {id : String}
    (told : .phase id .applying ∈ report.stories resources) : report.dryRun = false := by
  simp only [stories, Resource.story, List.mem_flatMap, Prod.exists] at told
  obtain ⟨r, x, -, told⟩ := told
  obtain ⟨passed, -⟩ : .applying ∈ x.outcome.phases report.dryRun ∧ r.id = id := by simpa using told
  cases dry : report.dryRun with
  | false => rfl
  | true =>
    rw [dry] at passed
    unfold Outcome.phases at passed
    split at passed <;> simp at passed

open Converge in
/-- The run of a valid list tells its beginning, then each resource that it reports, in order, then its end. -/
theorem converge_tells (host : Host σ) (opts : RunOptions) (l : RunList) (w : World σ)
    (valid : l.validate opts.nameScope = .ok ()) :
    ∃ report last, w.run (converge host l opts).run = (.ok report, last) ∧
      report.Tells host opts l w last := by
  have ran : w.run (converge host l opts).run = _ := converge_of_valid valid w
  have walk : Walk host opts _ _ _ _ := walked_walk l w
  have passage : ∀ (i : Nat) (r : Resource) (x : ResourceReport), l.resources[i]? = some r →
      (reportOf host opts l w).resources[i]? = some x →
      Passage opts.dryRun (verdictAt host opts l w i r) (x.outcome.phases opts.dryRun) x.outcome := by
    intro i r x declared reported
    have fit := RunList.fit_of_valid valid r (List.mem_of_getElem? declared)
    obtain ⟨phases, passage, -⟩ := oneResource_passage host opts fit
      (inTurn host opts (entered opts l w) (l.resources.take i))
    have dryRun : (inTurn host opts (entered opts l w) (l.resources.take i)).context.dryRun = opts.dryRun :=
      (inTurn_steady _ _).dryRun
    rw [dryRun, ← reports_getElem? ran declared reported] at passage
    rw [← passage.phases_eq]
    exact passage
  exact ⟨_, _, ran,
    { mode := rfl
      reached := walk.reached
      events := worldOf_events valid w
      named := fun i r x => reported_id ran
      passage := passage
      silent := fun i r x declared reported => (passage i r x declared reported).silent_iff
      applied := fun i r x declared reported => (passage i r x declared reported).applying_iff
      neverDry := fun id told => RunReport.real_of_applying told }⟩

def motleyList : RunList :=
  ⟨[.ofResource
      { name := "motd"
        spec := .renderedFile ⟨"/etc/motd", "motd.j2", []⟩
        guards := [⟨.onlyIf, .fileContains "/etc/motd" "("⟩]
        bestEffort := true } [],
    .ofResource
      { name := "conf"
        spec := .renderedFile ⟨"/etc/conf", "conf.j2", []⟩
        guards := [⟨.onlyIf, .fileExists "/opt"⟩] } [],
    .ofResource { name := "hosts", spec := .renderedFile ⟨"/etc/hosts", "hosts.j2", []⟩ } [],
    .ofResource { name := "build", spec := .command { command := "build" } } [],
    .ofResource { name := "late", spec := .command { command := "late" } } []]⟩

def motleyWorld : World Machine where
  machine := { Machine.empty with commands := [("build", { output := ⟨2, "", ""⟩ })] }
  context := ⟨false, false, .empty, .object [], .warn, []⟩
  calls := []
  events := []

theorem converge_tells_motley :
    motleyList.validate .perKind = .ok () ∧ ∃ report last,
      motleyWorld.run (converge Machine.host motleyList { onGuardError := .fail }).run = (.ok report, last) ∧
        report.Tells Machine.host { onGuardError := .fail } motleyList motleyWorld last ∧
        (report.resources.map fun x => x.outcome.phases false) =
          [[], [.guardChecked], [.guardChecked, .applying], [.guardChecked, .applying]] ∧
        report.state = .aborted := by
  have valid : motleyList.validate .perKind = .ok () := by rfl
  obtain ⟨report, last, ran, tells⟩ :=
    converge_tells Machine.host { onGuardError := .fail } motleyList motleyWorld valid
  have same : report = Converge.reportOf Machine.host { onGuardError := .fail } motleyList motleyWorld :=
    (Converge.converge_eq_ok ran).2.1
  refine ⟨valid, report, last, ran, tells, ?_, ?_⟩
  · rw [same]
    decide +kernel
  · rw [same]
    decide +kernel

end Provision
