import Provision.Proofs.Notifications
import Provision.Proofs.ResourceCalls

namespace Provision

variable {σ : Type}

def ResourceReport.Fatal (x : ResourceReport) : Prop :=
  (∃ cause category, x.outcome = .failed cause category) ∧ x.bestEffort = false

theorem ResourceReport.aborts_iff (x : ResourceReport) : x.aborts = true ↔ x.Fatal := by
  obtain ⟨kind, name, bestEffort, outcome, warnings⟩ := x
  cases outcome <;> simp [ResourceReport.aborts, ResourceReport.Fatal, Outcome.isSuccess]

def ResourceReport.identity (x : ResourceReport) : String × String × Bool := (x.kind, x.name, x.bestEffort)

def Resource.identity (r : Resource) : String × String × Bool := (r.kind.tag, r.name, r.bestEffort)

namespace Converge

open Composed

variable (host : Host σ) (opts : RunOptions)

def told (r : Resource) (phase : Phase) (w : World σ) : World σ :=
  { w with events := w.events ++ [.phase r.id phase] }

theorem told_context (r : Resource) (phase : Phase) (w : World σ) : (told r phase w).context = w.context := rfl

def ofCheck : Except Error Drift → Outcome
  | .ok .inSync => .unchanged
  | .ok (.drifted change) => .skipped (dryRunLead ++ change)
  | .error e => .ofError e

def ofApply : Except Error Change → Outcome
  | .ok change => .ofChange change
  | .error e => .ofError e

def concluded (r : Resource) (w : World σ) : Except Error Verdict → Outcome × World σ
  | .error e => (.ofError e, w)
  | .ok (.block reason) => (.skipped reason, told r .guardChecked w)
  | .ok .permit =>
    if w.context.dryRun = true then
      (ofCheck ((told r .guardChecked w).run (r.spec.check host r.name).run).1,
        ((told r .guardChecked w).run (r.spec.check host r.name).run).2)
    else
      (ofApply ((told r .applying (told r .guardChecked w)).run (r.spec.apply host r.name).run).1,
        ((told r .applying (told r .guardChecked w)).run (r.spec.apply host r.name).run).2)

def verdictOf (r : Resource) : StateM (World σ) (Except Error Verdict) :=
  (Guard.evaluateAll host (r.onGuardError.getD opts.onGuardError) r.allGuards).run

theorem run_resourceOutcome (r : Resource) (w : World σ) :
    w.run (resourceOutcome host opts r) =
      concluded host r (w.run (verdictOf host opts r)).2 (w.run (verdictOf host opts r)).1 := by
  unfold resourceOutcome
  change (w.run (verdictOf host opts r >>= _)) = _
  rw [World.run_bind]
  rcases w.run (verdictOf host opts r) with ⟨e | _ | reason, next⟩
  · rfl
  · have phase : next.run (emit (.phase r.id .guardChecked)) = ((), told r .guardChecked next) := rfl
    simp only [World.run_bind, phase, World.run_getContext, concluded, told_context]
    by_cases dry : next.context.dryRun = true
    · simp only [dry, ↓reduceIte, World.run_bind]
      rcases (told r .guardChecked next).run (r.spec.check host r.name).run with ⟨e | _ | change, last⟩ <;> rfl
    · have applying : (told r .guardChecked next).run (emit (.phase r.id .applying)) =
          ((), told r .applying (told r .guardChecked next)) := rfl
      simp only [dry, Bool.false_eq_true, ↓reduceIte, World.run_bind, applying]
      rcases (told r .applying (told r .guardChecked next)).run (r.spec.apply host r.name).run with ⟨e | _, last⟩ <;>
        rfl
  · rfl

def opened (r : Resource) (w : World σ) : World σ :=
  { w with context := { w.context with warnings := [] }, events := w.events ++ [.start r.id r.describe] }

def closed (r : Resource) (outcome : Outcome) (w : World σ) : World σ :=
  { w with context := { w.context with warnings := [] }, events := w.events ++ [.complete r.id outcome] }

theorem run_oneResource (r : Resource) (w : World σ) :
    w.run (oneResource host opts r) =
      (⟨r.kind.tag, r.name, r.bestEffort, ((opened r w).run (resourceOutcome host opts r)).1,
          ((opened r w).run (resourceOutcome host opts r)).2.context.warnings⟩,
        closed r ((opened r w).run (resourceOutcome host opts r)).1
          ((opened r w).run (resourceOutcome host opts r)).2) := rfl

theorem run_eachResource_cons (r : Resource) (rest : List Resource) (w : World σ) :
    w.run (eachResource host opts (r :: rest)) =
      if (w.run (oneResource host opts r)).1.aborts = true then
        ([(w.run (oneResource host opts r)).1], (w.run (oneResource host opts r)).2)
      else
        ((w.run (oneResource host opts r)).1 ::
            ((w.run (oneResource host opts r)).2.run (eachResource host opts rest)).1,
          ((w.run (oneResource host opts r)).2.run (eachResource host opts rest)).2) := by
  simp only [eachResource, World.run_bind]
  split <;> rfl

theorem resourceOutcome_acts (r : Resource) : Acts host r.MayCall (resourceOutcome host opts r) := by
  have guarded : Acts host r.MayCall (verdictOf host opts r) :=
    ((Guard.evaluateEach_acts host r.allGuards).mono fun _ => Or.inl).andThen fun _ => pure _
  have checked : Acts host r.MayCall (r.spec.check host r.name).run :=
    (r.spec.check_acts host r.name).mono fun _ made => Or.inr made.1
  have applied : Acts host r.MayCall (r.spec.apply host r.name).run :=
    (r.spec.apply_acts host r.name).mono fun _ => Or.inr
  refine guarded.andThen fun verdict => ?_
  rcases verdict with e | _ | reason
  · exact pure _
  · refine andThen (.emit _) fun _ => ?_
    refine Composed.getContext.andThen fun context => ?_
    split
    · refine checked.andThen fun seen => ?_
      split <;> exact pure _
    · refine andThen (.emit _) fun _ => applied.andThen fun done => ?_
      split <;> exact pure _
  · exact andThen (.emit _) fun _ => pure _

theorem oneResource_acts (r : Resource) : Acts host r.MayCall (oneResource host opts r) := by
  have cleared : Acts host r.MayCall (modifyContext (σ := σ) fun x => { x with warnings := [] }) :=
    .context (fun x => ((), { x with warnings := [] })) fun _ => ⟨rfl, rfl, rfl, fun _ _ => id⟩
  refine andThen (.emit _) fun _ => cleared.andThen fun _ => ?_
  refine (resourceOutcome_acts host opts r).andThen fun outcome => ?_
  exact andThen (.emit _) fun _ => Composed.getContext.andThen fun _ => cleared.andThen fun _ => pure _

theorem eachResource_acts (rs : List Resource) :
    Acts host (fun c => ∃ r ∈ rs, r.MayCall c) (eachResource host opts rs) := by
  induction rs with
  | nil => exact pure _
  | cons r rest ih =>
    refine andThen ((oneResource_acts host opts r).mono fun c made => ⟨r, List.mem_cons_self, made⟩) fun x => ?_
    split
    · exact pure _
    · refine andThen (ih.mono ?_) fun _ => pure _
      rintro c ⟨r, member, made⟩
      exact ⟨r, List.mem_cons_of_mem _ member, made⟩

theorem notifyAll_acts (commands : List String) :
    Acts host (fun c => c.mutates = false) (notifyAll host commands) := by
  have told : ∀ command, Acts host (fun c => c.mutates = false) (notify host command) := by
    intro line
    refine andThen (command _ _ _ _ fun _ => rfl) fun reply => ?_
    rcases reply with fault | output
    · exact pure _
    · dsimp only
      split <;> exact pure _
  induction commands with
  | nil => exact pure _
  | cons command rest ih =>
    refine andThen (told command) fun report => ?_
    split
    · exact ih.andThen fun _ => pure _
    · exact pure _

def inTurn (w : World σ) (rs : List Resource) : World σ :=
  rs.foldl (fun w r => (w.run (oneResource host opts r)).2) w

/-- The report of a resource that is taken after others. -/
def reportAfter (w : World σ) (before : List Resource) (r : Resource) : ResourceReport :=
  ((inTurn host opts w before).run (oneResource host opts r)).1

/-- The reports and the last world of resources that were taken in order. -/
structure Walk (rs : List Resource) (w : World σ) (reports : List ResourceReport) (last : World σ) : Prop where
  reached : reports.length ≤ rs.length
  each : ∀ i r, i < reports.length → rs[i]? = some r → reports[i]? = some (reportAfter host opts w (rs.take i) r)
  world : last = inTurn host opts w (rs.take reports.length)
  goesOn : ∀ x ∈ reports.dropLast, ¬ x.Fatal
  whole : reports.length = rs.length ∨ ∃ x, reports.getLast? = some x ∧ x.Fatal

variable {host opts}

theorem Walk.stop {r : Resource} {rest : List Resource} {w : World σ}
    (fatal : (w.run (oneResource host opts r)).1.Fatal) :
    Walk host opts (r :: rest) w [(w.run (oneResource host opts r)).1] (w.run (oneResource host opts r)).2 := by
  refine ⟨by simp, ?_, rfl, by simp, Or.inr ⟨_, rfl, fatal⟩⟩
  intro i s bound here
  have first : i = 0 := by simpa using bound
  subst first
  cases here
  rfl

theorem Walk.step {r : Resource} {rest : List Resource} {w last : World σ} {reports : List ResourceReport}
    (fine : ¬ (w.run (oneResource host opts r)).1.Fatal)
    (later : Walk host opts rest (w.run (oneResource host opts r)).2 reports last) :
    Walk host opts (r :: rest) w ((w.run (oneResource host opts r)).1 :: reports) last := by
  refine ⟨by simpa using later.reached, ?_, later.world, ?_, ?_⟩
  · intro i s bound here
    cases i with
    | zero =>
      cases here
      rfl
    | succ i => exact later.each i s (by simpa using bound) (by simpa using here)
  · intro x member
    cases reports with
    | nil => simp at member
    | cons y ys =>
      rw [List.dropLast_cons_cons, List.mem_cons] at member
      rcases member with rfl | member
      · exact fine
      · exact later.goesOn x member
  · rcases later.whole with full | ⟨x, final, fatal⟩
    · exact Or.inl (by simp [full])
    · refine Or.inr ⟨x, ?_, fatal⟩
      cases reports with
      | nil => simp at final
      | cons y ys => simpa using final

theorem eachResource_walk (rs : List Resource) (w : World σ) :
    Walk host opts rs w (w.run (eachResource host opts rs)).1 (w.run (eachResource host opts rs)).2 := by
  induction rs generalizing w with
  | nil => exact ⟨Nat.le_refl 0, by simp [eachResource], rfl, by simp [eachResource], Or.inl rfl⟩
  | cons r rest ih =>
    rw [run_eachResource_cons]
    by_cases stops : (w.run (oneResource host opts r)).1.aborts = true
    · rw [if_pos stops]
      exact Walk.stop ((ResourceReport.aborts_iff _).mp stops)
    · rw [if_neg stops]
      exact Walk.step (fun fatal => stops ((ResourceReport.aborts_iff _).mpr fatal)) (ih _)

theorem Walk.inOrder {rs : List Resource} {w last : World σ} {reports : List ResourceReport}
    (walk : Walk host opts rs w reports last) :
    reports.map ResourceReport.identity = (rs.take reports.length).map Resource.identity := by
  apply List.ext_getElem?
  intro i
  rw [List.getElem?_map, List.getElem?_map, List.getElem?_take]
  by_cases bound : i < reports.length
  · have present : i < rs.length := Nat.lt_of_lt_of_le bound walk.reached
    have here : rs[i]? = some rs[i] := List.getElem?_eq_getElem present
    rw [walk.each i _ bound here, if_pos bound, here]
    rfl
  · rw [List.getElem?_eq_none (Nat.le_of_not_lt bound), if_neg bound]
    rfl

theorem Walk.fatal_last {rs : List Resource} {w last : World σ} {reports : List ResourceReport}
    (walk : Walk host opts rs w reports last) {x : ResourceReport} (member : x ∈ reports) (fatal : x.Fatal) :
    reports.getLast? = some x := by
  have nonempty := List.ne_nil_of_mem member
  rw [List.getLast?_eq_some_getLast nonempty]
  rw [← List.dropLast_concat_getLast nonempty, List.mem_append, List.mem_singleton] at member
  rcases member with member | member
  · exact absurd fatal (walk.goesOn x member)
  · rw [member]

theorem Walk.any_aborts {rs : List Resource} {w last : World σ} {reports : List ResourceReport}
    (walk : Walk host opts rs w reports last) :
    reports.any ResourceReport.aborts = true ↔ ∃ x, reports.getLast? = some x ∧ x.Fatal := by
  rw [List.any_eq_true]
  constructor
  · rintro ⟨x, member, stops⟩
    have fatal := (ResourceReport.aborts_iff x).mp stops
    exact ⟨x, walk.fatal_last member fatal, fatal⟩
  · rintro ⟨x, final, fatal⟩
    exact ⟨x, List.mem_of_getLast? final, (ResourceReport.aborts_iff x).mpr fatal⟩

theorem Walk.find_aborts {rs : List Resource} {w last : World σ} {reports : List ResourceReport}
    (walk : Walk host opts rs w reports last) {x : ResourceReport} (final : reports.getLast? = some x)
    (fatal : x.Fatal) : reports.find? ResourceReport.aborts = some x := by
  have member := List.mem_of_getLast? final
  obtain ⟨y, found⟩ := Option.isSome_iff_exists.mp
    (List.find?_isSome.mpr ⟨x, member, (ResourceReport.aborts_iff x).mpr fatal⟩)
  have other := walk.fatal_last (List.mem_of_find?_eq_some found)
    ((ResourceReport.aborts_iff y).mp (List.find?_some found))
  rw [final] at other
  cases other
  exact found

variable (host opts)

def entered (l : RunList) (w : World σ) : World σ :=
  { w with context := enter opts w.context, events := w.events ++ [.runStart l.size] }

def walked (l : RunList) (w : World σ) : List ResourceReport × World σ :=
  (entered opts l w).run (eachResource host opts l.resources)

def notified (l : RunList) (w : World σ) : List NotificationReport × World σ :=
  if (walked host opts l w).1.any ResourceReport.aborts || opts.dryRun then ([], (walked host opts l w).2)
  else (walked host opts l w).2.run (notifyAll host (due l.resources (walked host opts l w).1))

def finalState (l : RunList) (w : World σ) : RunState :=
  if (walked host opts l w).1.any ResourceReport.aborts || (notified host opts l w).1.any (!·.success) then
    .aborted
  else .completed

def reportOf (l : RunList) (w : World σ) : RunReport :=
  ⟨finalState host opts l w, opts.dryRun, (walked host opts l w).1, (notified host opts l w).1⟩

def worldOf (l : RunList) (w : World σ) : World σ :=
  { (notified host opts l w).2 with
    events := (notified host opts l w).2.events ++ [.runComplete (finalState host opts l w)] }

theorem run_runValid (l : RunList) (w : World σ) :
    w.run (runValid host opts l) = (reportOf host opts l w, worldOf host opts l w) := by
  simp only [runValid, World.run_bind, World.run_modifyContext, World.run_emit]
  have started : World.run { w with context := enter opts w.context, events := w.events ++ [.runStart l.size] }
      (eachResource host opts l.resources) = walked host opts l w := rfl
  simp only [started, reportOf, worldOf, finalState, notified]
  by_cases none : ((walked host opts l w).1.any ResourceReport.aborts || opts.dryRun) = true
  · simp only [none, ↓reduceIte]
    rfl
  · simp only [none]
    rfl

theorem run_converge (l : RunList) (w : World σ) :
    w.run (converge host l opts).run =
      match l.validate opts.nameScope with
      | .error e => (.error e, w)
      | .ok () => (.ok (reportOf host opts l w), worldOf host opts l w) := by
  unfold converge
  rcases l.validate opts.nameScope with e | ⟨⟩
  · rfl
  · have valid := run_runValid host opts l w
    simp only [World.try_lift, valid]

variable {host opts}

theorem converge_of_valid {l : RunList} (valid : l.validate opts.nameScope = .ok ()) (w : World σ) :
    w.run (converge host l opts).run = (.ok (reportOf host opts l w), worldOf host opts l w) := by
  rw [run_converge, valid]

theorem converge_eq_ok {l : RunList} {w last : World σ} {report : RunReport}
    (ran : w.run (converge host l opts).run = (.ok report, last)) :
    l.validate opts.nameScope = .ok () ∧ report = reportOf host opts l w ∧ last = worldOf host opts l w := by
  rw [run_converge] at ran
  cases valid : l.validate opts.nameScope with
  | error e =>
    rw [valid] at ran
    cases ran
  | ok =>
    rw [valid] at ran
    cases ran
    exact ⟨rfl, rfl, rfl⟩

theorem walked_walk (l : RunList) (w : World σ) :
    Walk host opts l.resources (entered opts l w) (walked host opts l w).1 (walked host opts l w).2 :=
  eachResource_walk l.resources (entered opts l w)

variable (host opts) in
theorem notified_made (l : RunList) (w : World σ) :
    Made host (fun c => c.mutates = false) (walked host opts l w).2 (notified host opts l w).2 := by
  unfold notified
  split
  · exact .refl _
  · exact (notifyAll_acts host _).makes _

theorem notified_noChange {l : RunList} {w : World σ}
    (noChange : ∀ x ∈ (walked host opts l w).1, x.outcome.isChange = false) :
    notified host opts l w = ([], (walked host opts l w).2) := by
  have nothing : due l.resources (walked host opts l w).1 = [] := by
    rw [List.eq_nil_iff_forall_not_mem]
    intro command isDue
    obtain ⟨r, x, member, change, -⟩ := mem_due.mp isDue
    rw [noChange x (List.of_mem_zip member).2] at change
    cases change
  unfold notified
  rw [nothing]
  split <;> rfl

theorem notified_dry {l : RunList} {w : World σ} (dry : opts.dryRun = true) :
    notified host opts l w = ([], (walked host opts l w).2) := by
  simp [notified, dry]

theorem notified_of_fatal {l : RunList} {w : World σ} {x : ResourceReport}
    (final : (walked host opts l w).1.getLast? = some x) (fatal : x.Fatal) :
    notified host opts l w = ([], (walked host opts l w).2) := by
  have stops := (walked_walk l w).any_aborts.mpr ⟨x, final, fatal⟩
  simp [notified, stops]

theorem finalState_aborted_iff (l : RunList) (w : World σ) :
    finalState host opts l w = .aborted ↔
      (∃ x, (walked host opts l w).1.getLast? = some x ∧ x.Fatal) ∨
        ∃ n ∈ (notified host opts l w).1, n.success = false := by
  rw [← (walked_walk l w).any_aborts]
  unfold finalState
  by_cases stops : (walked host opts l w).1.any ResourceReport.aborts = true
  · simp [stops]
  · simp only [stops]
    simp

theorem finalState_completed_iff (l : RunList) (w : World σ) :
    finalState host opts l w = .completed ↔ finalState host opts l w ≠ .aborted := by
  unfold finalState
  split <;> simp

/-- Notifications that ran did so one after the other, up to the first that failed. -/
theorem notified_ended (l : RunList) (w : World σ) :
    (notified host opts l w).1 = [] ∨
      Ended (due l.resources (walked host opts l w).1) (notified host opts l w).1 := by
  unfold notified
  split
  · exact Or.inl rfl
  · exact Or.inr (notifyAll_ended host _ _)

theorem notified_failed {l : RunList} {w : World σ} (bad : ∃ n ∈ (notified host opts l w).1, n.success = false) :
    ∃ n, (notified host opts l w).1.getLast? = some n ∧ n.success = false ∧
      (notified host opts l w).1.find? (!·.success) = some n := by
  have ran : _ ∨ Ended _ (notified host opts l w).1 := notified_ended l w
  rcases ran with silent | ended
  · obtain ⟨n, member, -⟩ := bad
    rw [silent] at member
    cases member
  · exact ended.failed bad

end Converge

namespace RunList

theorem ownError?_of_valid {scope : NameScope} {seen : List (Option Kind × String)} {rs : List Resource}
    (fine : firstError? scope seen rs = none) : ∀ r ∈ rs, ownError? r = none := by
  induction rs generalizing seen with
  | nil => simp
  | cons s rest ih =>
    unfold firstError? at fine
    cases own : ownError? s with
    | some e => simp [own] at fine
    | none =>
      rw [own] at fine
      dsimp only at fine
      intro r member
      rcases List.mem_cons.mp member with rfl | member
      · exact own
      · split at fine
        · exact ih fine r member
        · split at fine
          · cases fine
          · exact ih fine r member

theorem sound_of_valid {l : RunList} {scope : NameScope} (valid : l.validate scope = .ok ()) :
    ∀ r ∈ l.resources, ownError? r = none := by
  have fine : firstError? scope [] l.resources = none := by
    unfold validate at valid
    split at valid
    · cases valid
    · assumption
  exact ownError?_of_valid fine

theorem named_of_valid {l : RunList} {scope : NameScope} (valid : l.validate scope = .ok ()) :
    ∀ r ∈ l.resources, Text.isBlankText r.name = false := by
  intro r member
  have own := sound_of_valid valid r member
  unfold ownError? at own
  split at own
  · cases own
  · rename_i named
    exact Bool.eq_false_iff.mpr named

theorem fit_of_valid {l : RunList} {scope : NameScope} (valid : l.validate scope = .ok ()) :
    ∀ r ∈ l.resources, r.spec.problem? = none := by
  intro r member
  have own := sound_of_valid valid r member
  unfold ownError? at own
  split at own
  · cases own
  · simpa using own

end RunList

/-- What a report says about the run of a valid list from `w` that left `last`. -/
structure RunReport.Accounts (host : Host σ) (opts : RunOptions) (l : RunList) (w : World σ)
    (report : RunReport) (last : World σ) : Prop where
  inOrder : report.resources.map ResourceReport.identity <+: l.resources.map Resource.identity
  each : ∀ i r, i < report.resources.length → l.resources[i]? = some r → report.resources[i]? =
    some (Converge.reportAfter host opts (Converge.entered opts l w) (l.resources.take i) r)
  goesOn : ∀ x ∈ report.resources.dropLast, ¬ x.Fatal
  whole : report.resources.length = l.resources.length ∨ ∃ x, report.resources.getLast? = some x ∧ x.Fatal
  /-- No call follows those of a last resource that failed fatally. -/
  silent : ∀ x, report.resources.getLast? = some x → x.Fatal → report.notifications = [] ∧
    last.calls = (Converge.inTurn host opts (Converge.entered opts l w)
      (l.resources.take report.resources.length)).calls
  state : report.state = .completed ∨ report.state = .aborted
  aborted : report.state = .aborted ↔ (∃ x, report.resources.getLast? = some x ∧ x.Fatal) ∨
    ∃ n ∈ report.notifications, n.success = false
  cause : report.abortCause?.isSome = true ↔ report.state = .aborted
  causeResource : ∀ x, report.resources.getLast? = some x → x.Fatal → report.abortCause? = some (.resource x)
  causeNotification : report.state = .aborted → (¬ ∃ x, report.resources.getLast? = some x ∧ x.Fatal) →
    ∃ n, report.notifications.getLast? = some n ∧ n.success = false ∧
      report.abortCause? = some (.notification n)
  exit : report.exitCode = 0 ↔ report.state = .completed

open Converge in
theorem RunReport.abortCause_of_fatal {host : Host σ} {opts : RunOptions} {l : RunList} {w : World σ}
    {x : ResourceReport} (final : (walked host opts l w).1.getLast? = some x) (fatal : x.Fatal) :
    (reportOf host opts l w).abortCause? = some (.resource x) := by
  have state : finalState host opts l w = .aborted := (finalState_aborted_iff l w).mpr (Or.inl ⟨x, final, fatal⟩)
  have found := (walked_walk l w).find_aborts final fatal
  simp [RunReport.abortCause?, reportOf, state, found]

open Converge in
theorem RunReport.abortCause_of_notification {host : Host σ} {opts : RunOptions} {l : RunList} {w : World σ}
    (fine : ¬ ∃ x, (walked host opts l w).1.getLast? = some x ∧ x.Fatal)
    (bad : ∃ n ∈ (notified host opts l w).1, n.success = false) :
    ∃ n, (notified host opts l w).1.getLast? = some n ∧ n.success = false ∧
      (reportOf host opts l w).abortCause? = some (.notification n) := by
  have state : finalState host opts l w = .aborted := (finalState_aborted_iff l w).mpr (Or.inr bad)
  obtain ⟨n, final, failed, found⟩ := notified_failed bad
  have noResource : (walked host opts l w).1.find? ResourceReport.aborts = none := by
    rw [List.find?_eq_none]
    intro x member stops
    exact fine ((walked_walk l w).any_aborts.mp (List.any_eq_true.mpr ⟨x, member, stops⟩))
  exact ⟨n, final, failed, by simp [RunReport.abortCause?, reportOf, state, noResource, found]⟩

open Converge in
theorem reportOf_accounts (host : Host σ) (opts : RunOptions) (l : RunList) (w : World σ) :
    (reportOf host opts l w).Accounts host opts l w (worldOf host opts l w) := by
  have walk : Walk host opts l.resources _ _ _ := walked_walk l w
  have completed_iff : finalState host opts l w = _ ↔ _ := finalState_completed_iff l w
  have aborted_iff : finalState host opts l w = _ ↔ _ := finalState_aborted_iff l w
  refine
    { inOrder := ?_
      each := walk.each
      goesOn := walk.goesOn
      whole := walk.whole
      silent := ?_
      state := ?_
      aborted := aborted_iff
      cause := ?_
      causeResource := fun x final fatal => RunReport.abortCause_of_fatal final fatal
      causeNotification := ?_
      exit := ?_ }
  · change (walked host opts l w).1.map ResourceReport.identity <+: _
    rw [walk.inOrder, List.map_take]
    exact List.take_prefix _ _
  · intro x final fatal
    have silent := notified_of_fatal final fatal
    refine ⟨by simp [reportOf, silent], ?_⟩
    change (notified host opts l w).2.calls = _
    rw [silent, walk.world]
    rfl
  · by_cases state : finalState host opts l w = .aborted
    · exact Or.inr state
    · exact Or.inl (completed_iff.mpr state)
  · constructor
    · intro known
      by_cases state : (reportOf host opts l w).state = .aborted
      · exact state
      · have unknown : (reportOf host opts l w).abortCause? = none := if_neg state
        rw [unknown] at known
        cases known
    · intro state
      -- A resource that ended the run counts before a notification that failed.
      rcases aborted_iff.mp state with ⟨x, final, fatal⟩ | bad
      · rw [RunReport.abortCause_of_fatal final fatal]
        rfl
      · by_cases fine : ∃ x, (walked host opts l w).1.getLast? = some x ∧ x.Fatal
        · obtain ⟨x, final, fatal⟩ := fine
          rw [RunReport.abortCause_of_fatal final fatal]
          rfl
        · obtain ⟨n, -, -, cause⟩ := RunReport.abortCause_of_notification fine bad
          rw [cause]
          rfl
  · intro state fine
    rcases aborted_iff.mp state with fatal | bad
    · exact absurd fatal fine
    · exact RunReport.abortCause_of_notification fine bad
  · unfold RunReport.exitCode
    by_cases state : (reportOf host opts l w).state = .completed <;> simp [state]

/-- A list that is not valid is refused and nothing is touched; any other gets a report, and the
report accounts for the run. -/
theorem converge_accounts (host : Host σ) (opts : RunOptions) (l : RunList) (w : World σ) :
    match l.validate opts.nameScope with
    | .error e => w.run (converge host l opts).run = (.error e, w)
    | .ok () => ∃ report last, w.run (converge host l opts).run = (.ok report, last) ∧
        report.Accounts host opts l w last := by
  have result := Converge.run_converge host opts l w
  cases valid : l.validate opts.nameScope with
  | error e =>
    rw [valid] at result
    exact result
  | ok =>
    rw [valid] at result
    exact ⟨_, _, result, reportOf_accounts host opts l w⟩

end Provision
