import Provision.Execution
import Provision.Proofs.DryRun
import Provision.Proofs.Preview

namespace Provision

variable {σ α β : Type} {host : Host σ} {R : σ → σ → Prop} {opts : RunOptions}

/-- From worlds related by `S` the program gives the same answer, and it leaves worlds related by `T`. -/
def Relates (S T : World σ → World σ → Prop) (x : StateM (World σ) α) : Prop :=
  ∀ w v, S w v → (w.run x).1 = (v.run x).1 ∧ T (w.run x).2 (v.run x).2

namespace Relates

variable {S T U : World σ → World σ → Prop}

theorem pure (a : α) : Relates S S (Pure.pure a) := fun _ _ related => ⟨rfl, related⟩

theorem bind {x : StateM (World σ) α} {f : α → StateM (World σ) β} (first : Relates S T x)
    (rest : ∀ a, Relates T U (f a)) : Relates S U (x >>= f) := by
  intro w v related
  obtain ⟨same, next⟩ := first w v related
  rw [World.run_bind, World.run_bind, ← same]
  exact rest _ _ _ next

theorem mono {x : StateM (World σ) α} (relates : Relates S T x) (weaker : ∀ w v, T w v → U w v) : Relates S U x := by
  intro w v related
  obtain ⟨same, next⟩ := relates w v related
  exact ⟨same, weaker _ _ next⟩

end Relates

/-- Worlds that a program does not tell apart. -/
structure Twins (R : σ → σ → Prop) (w v : World σ) : Prop where
  machine : R w.machine v.machine
  context : w.context = v.context

theorem Composed.respects {P : Call → Prop} {C : Context → Context → Prop} {x : StateM (World σ) α}
    (composed : Composed host P C x) (like : host.Likeness R) : Relates (Twins R) (Twins R) x := by
  induction composed with
  | read f =>
    intro w v twins
    exact ⟨congrArg f twins.context, twins⟩
  | call c _ =>
    intro w v twins
    exact ⟨like.answer twins.machine c, like.after twins.machine c, twins.context⟩
  | emit e =>
    intro w v twins
    exact ⟨rfl, twins.machine, twins.context⟩
  | context g _ =>
    intro w v twins
    have answer : (g w.context).1 = (g v.context).1 := by rw [twins.context]
    have context : (g w.context).2 = (g v.context).2 := by rw [twins.context]
    exact ⟨answer, twins.machine, context⟩
  | bind _ answers _ _ ihFirst ihRest =>
    -- not `Relates.bind`: how it goes on is known only for the answers that can be given
    intro w v twins
    obtain ⟨same, next⟩ := ihFirst w v twins
    rw [World.run_bind, World.run_bind, ← same]
    exact ihRest _ (answers w) _ _ next

/-- Twins but for the warnings that were left in the context. A resource starts with none. -/
structure Akin (R : σ → σ → Prop) (w v : World σ) : Prop where
  machine : R w.machine v.machine
  context : w.context.Warned v.context

theorem Twins.akin (w v : World σ) (twins : Twins R w v) : Akin R w v := by
  refine ⟨twins.machine, ?_⟩
  rw [twins.context]
  rfl

theorem Akin.opened {w v : World σ} (akin : Akin R w v) (r : Resource) :
    Twins R (Converge.opened r w) (Converge.opened r v) := by
  have context := akin.context
  refine ⟨akin.machine, ?_⟩
  change { w.context with warnings := [] } = { v.context with warnings := [] }
  rw [context]

namespace Converge

variable (opts) (like : host.Likeness R)
include like

theorem oneResource_akin (r : Resource) : Relates (Akin R) (Twins R) (oneResource host opts r) := by
  intro w v akin
  obtain ⟨same, twins⟩ := (resourceOutcome_acts host opts r).respects like _ _ (akin.opened r)
  have warned := congrArg Context.warnings twins.context
  have context := congrArg (fun x : Context => { x with warnings := [] }) twins.context
  rw [run_oneResource, run_oneResource, same, warned]
  exact ⟨rfl, twins.machine, context⟩

theorem eachResource_akin (rs : List Resource) : Relates (Akin R) (Akin R) (eachResource host opts rs) := by
  cases rs with
  | nil => exact .pure _
  | cons r rest =>
    have later : Relates (Twins R) (Akin R) (eachResource host opts rest) :=
      ((eachResource_acts host opts rest).respects like).mono Twins.akin
    refine (oneResource_akin opts like r).bind fun report => ?_
    split
    · exact (Relates.pure _).mono Twins.akin
    · exact later.bind fun _ => .pure _

theorem notify_akin (command : String) : Relates (Akin R) (Akin R) (notify host command) := by
  intro w v akin
  have env : v.context.env = w.context.env := by rw [akin.context]
  rw [run_notify, run_notify, env, like.answer akin.machine]
  exact ⟨rfl, like.after akin.machine _, akin.context⟩

theorem notifyAll_akin (commands : List String) : Relates (Akin R) (Akin R) (notifyAll host commands) := by
  induction commands with
  | nil => exact .pure _
  | cons command rest ih =>
    refine (notify_akin like command).bind fun report => ?_
    split
    · exact ih.bind fun _ => .pure _
    · exact .pure _

variable {opts}

variable {l : RunList}

theorem run_akin {w v : World σ} (akin : Akin R (entered opts l w) (entered opts l v)) :
    reportOf host opts l w = reportOf host opts l v ∧ Akin R (worldOf host opts l w) (worldOf host opts l v) := by
  obtain ⟨reports, next⟩ := eachResource_akin opts like l.resources _ _ akin
  change (walked host opts l w).1 = (walked host opts l v).1 at reports
  change Akin R (walked host opts l w).2 (walked host opts l v).2 at next
  have told : (notified host opts l w).1 = (notified host opts l v).1 ∧
      Akin R (notified host opts l w).2 (notified host opts l v).2 := by
    unfold notified
    rw [reports]
    split
    · exact ⟨rfl, next⟩
    · exact notifyAll_akin like _ _ _ next
  obtain ⟨notifications, last⟩ := told
  exact ⟨by simp only [reportOf, finalState, reports, notifications], last.machine, last.context⟩

end Converge

theorem Resource.guardCall_of_mem {env : Environment} {r : Resource} {c : Call} (command : c ∈ r.guardCommands env) :
    r.GuardCall env c := by
  obtain ⟨g, member, command⟩ := List.mem_flatMap.mp command
  have runs : ∃ line user cwd, g.check = .command line user cwd ∧ c = .run line user cwd env.vars := by
    cases check : g.check with
    | command line user cwd =>
      rw [check] at command
      exact ⟨line, user, cwd, rfl, List.mem_singleton.mp command⟩
    | fileExists | ownedBy | fileContains =>
      rw [check] at command
      cases command
  obtain ⟨line, user, cwd, check, rfl⟩ := runs
  rcases List.mem_append.mp member with implicit | declared
  · cases spec : r.spec with
    | ownership o =>
      rw [spec] at implicit
      rw [List.mem_singleton.mp implicit] at check
      cases check
    | package | command | lineEdit | renderedFile | workingCopy | scheduledJob | site =>
      rw [spec] at implicit
      cases implicit
  · exact ⟨g, declared, line, user, cwd, check, rfl⟩

theorem Inspected.harmless {l : RunList} {env : Environment} {rs : List Resource} {w last : World σ}
    (inspected : Inspected host (rs.flatMap (·.guardCommands env)) w last) (members : ∀ r ∈ rs, r ∈ l.resources) :
    Made host (l.Harmless env) w last := by
  obtain ⟨made, log, machine, harmless, ran⟩ := inspected.calls
  refine ⟨⟨made, log, machine, ?_⟩, Context.Warned.steady inspected.context⟩
  intro c member
  refine ⟨harmless c member, fun isRun => ?_⟩
  have command : c ∈ made.filter Call.isRun := List.mem_filter.mpr ⟨member, isRun⟩
  rw [ran] at command
  obtain ⟨r, taken, command⟩ := List.mem_flatMap.mp command
  exact ⟨r, members r taken, Resource.guardCall_of_mem command⟩

theorem DiffSummary.add_changes (s : DiffSummary) (x : ResourceReport) :
    (s.add x.outcome).changes = s.changes + (PendingChange.ofReport? x).toList.length := by
  unfold DiffSummary.add PendingChange.ofReport? Text.startsWith Text.stripLead?
  cases x.outcome with
  | skipped reason =>
    dsimp only
    rcases Text.dropLead? dryRunLead.toList reason.toList with _ | rest <;> rfl
  | unchanged | converged | failed => rfl

theorem DiffSummary.adds_changes (xs : List ResourceReport) (s : DiffSummary) :
    (xs.foldl (fun s x => s.add x.outcome) s).changes =
      s.changes + (xs.filterMap PendingChange.ofReport?).length := by
  induction xs generalizing s with
  | nil => simp
  | cons x rest ih =>
    rw [List.foldl_cons, ih, add_changes, List.filterMap_cons]
    cases PendingChange.ofReport? x with
    | none => rfl
    | some change =>
      simp only [Option.toList_some, List.length_cons, List.length_nil]
      omega

theorem RunReport.diffSummary_changes (report : RunReport) :
    report.diffSummary.changes = report.pendingChanges.length :=
  (DiffSummary.adds_changes report.resources .none).trans (Nat.zero_add _)

theorem RunReport.hasChanges_iff (report : RunReport) :
    report.diffSummary.hasChanges = true ↔ report.pendingChanges ≠ [] := by
  rw [DiffSummary.hasChanges, diffSummary_changes, decide_eq_true_iff, List.length_pos_iff]

namespace Execution

/-- A dry run that leaves something to do, or could not tell. -/
def Worthwhile (opts : ExecutionOptions) (preview : RunReport) : Prop :=
  opts.dryRun = false ∧ (preview.state = .aborted ∨ preview.pendingChanges ≠ [])

/-- A real run follows a dry run that was worthwhile, if nobody need be asked or the answer is yes. -/
def Approved (opts : ExecutionOptions) (consent : Consent) (preview : RunReport) : Prop :=
  Worthwhile opts preview ∧ (opts.yes = true ∨ consent = .ok true)

variable {consent : Consent} {l : RunList} {opts : ExecutionOptions} {preview : RunReport} {w mid : World σ}

theorem next_of_worthwhile (worthwhile : Worthwhile opts preview) : ∃ more, next opts preview = .ask more := by
  obtain ⟨real, aborted | pending⟩ := worthwhile
  · simp [next, real, aborted]
  · have changes := preview.hasChanges_iff.mpr pending
    unfold next
    rw [real, changes]
    split
    · cases ‹false = true›
    · split <;> exact ⟨_, rfl⟩

theorem next_of_not_worthwhile (idle : ¬ Worthwhile opts preview) : ∃ more, next opts preview = .stop more := by
  unfold next
  by_cases dry : opts.dryRun = true
  · exact ⟨_, if_pos dry⟩
  · have nothing : ¬ (preview.state = .aborted ∨ preview.pendingChanges ≠ []) :=
      fun due => idle ⟨Bool.eq_false_iff.mpr dry, due⟩
    obtain ⟨going, noPending⟩ := not_or.mp nothing
    have noChanges : ¬ preview.diffSummary.hasChanges = true := fun changes => noPending (preview.hasChanges_iff.mp changes)
    rw [if_neg dry, if_neg going, if_neg noChanges]
    exact ⟨_, rfl⟩

theorem run_converge_of_valid (host : Host σ) (valid : l.validate opts.nameScope = .ok ()) (dryRun : Bool) (w : World σ) :
    w.run (converge host l (opts.run dryRun)).run =
      (.ok (Converge.reportOf host (opts.run dryRun) l w), Converge.worldOf host (opts.run dryRun) l w) := by
  have fine : l.validate (opts.run dryRun).nameScope = .ok () := valid
  exact Converge.converge_of_valid fine w

theorem run_proceed (host : Host σ) (shown : Display.Output) (valid : l.validate opts.nameScope = .ok ())
    (w : World σ) :
    ∃ more, w.run (proceed host l opts shown) =
      ((.ok (.applied (Converge.reportOf host (opts.run false) l w)), more),
        Converge.worldOf host (opts.run false) l w) := by
  simp only [proceed, World.run_bind, run_converge_of_valid host valid false w]
  exact ⟨_, rfl⟩

theorem execute_approved (previewed : w.run (converge host l (opts.run true)).run = (.ok preview, mid))
    (approved : Approved opts consent preview) :
    ∃ shown, w.run (execute host consent l opts) =
      ((.ok (.applied (Converge.reportOf host (opts.run false) l mid)), shown),
        Converge.worldOf host (opts.run false) l mid) := by
  obtain ⟨valid, -, -⟩ := Converge.converge_eq_ok previewed
  obtain ⟨worthwhile, agreed⟩ := approved
  obtain ⟨more, asks⟩ := next_of_worthwhile worthwhile
  simp only [execute, World.run_bind, previewed, asks]
  rcases agreed with yes | accepted
  · rw [if_pos yes]
    exact run_proceed host _ valid mid
  · rw [accepted]
    split <;> exact run_proceed host _ valid mid

theorem execute_not_approved (previewed : w.run (converge host l (opts.run true)).run = (.ok preview, mid))
    (refused : ¬ Approved opts consent preview) :
    ∃ result shown, (∀ report, result ≠ .ok (.applied report)) ∧
      w.run (execute host consent l opts) = ((result, shown), mid) := by
  by_cases worthwhile : Worthwhile opts preview
  · obtain ⟨more, asks⟩ := next_of_worthwhile worthwhile
    have unasked : ¬ opts.yes = true := fun yes => refused ⟨worthwhile, Or.inl yes⟩
    simp only [execute, World.run_bind, previewed, asks]
    rw [if_neg unasked]
    rcases consent with fault | _ | _
    · exact ⟨.error (.prompt fault), _, by simp, rfl⟩
    · exact ⟨.ok (.declined preview), _, by simp, rfl⟩
    · exact absurd ⟨worthwhile, Or.inr rfl⟩ refused
  · obtain ⟨more, stops⟩ := next_of_not_worthwhile worthwhile
    simp only [execute, World.run_bind, previewed, stops]
    exact ⟨.ok (.previewed preview), _, by simp, rfl⟩

theorem execute_refused {e : Error} (invalid : w.run (converge host l (opts.run true)).run = (.error e, mid)) :
    w.run (execute host consent l opts) = ((.error (.refused e), .none), mid) := by
  simp only [execute, World.run_bind, invalid]
  rfl

variable (host) in
theorem previewed_made (l : RunList) (opts : ExecutionOptions) (w : World σ) :
    (∃ made, (w.run (converge host l (opts.run true)).run).2.calls = w.calls ++ made ∧
      (w.run (converge host l (opts.run true)).run).2.machine = host.leads w.machine made ∧
      ∀ c ∈ made, l.Harmless w.context.env c) ∧
    (w.run (converge host l (opts.run true)).run).2.context.env = w.context.env := by
  rw [Converge.run_converge]
  cases l.validate (opts.run true).nameScope with
  | error e => exact ⟨⟨[], (List.append_nil _).symm, rfl, by simp⟩, rfl⟩
  | ok =>
    have dry : (opts.run true).dryRun = true := rfl
    obtain ⟨inspected, -⟩ := Converge.worldOf_inspected host l w dry
    exact ⟨(inspected.harmless fun r => List.mem_of_mem_take).calls, inspected.env⟩

section

variable (like : host.Likeness R) (quiet : ∀ c, l.Harmless w.context.env c → R (host.answer c w.machine).2 w.machine)
include like quiet

variable (opts) in
theorem previewed_quiet : R (w.run (converge host l (opts.run true)).run).2.machine w.machine := by
  obtain ⟨⟨made, -, machine, allowed⟩, -⟩ := previewed_made host l opts w
  rw [machine]
  exact like.leads_quiet (fun c member => quiet c (allowed c member)) (like.refl w.machine)

theorem real_run_akin (previewed : w.run (converge host l (opts.run true)).run = (.ok preview, mid)) :
    Converge.reportOf host (opts.run false) l mid = Converge.reportOf host (opts.run false) l w ∧
      Akin R (Converge.worldOf host (opts.run false) l mid) (Converge.worldOf host (opts.run false) l w) := by
  have still := previewed_quiet opts like quiet
  rw [previewed] at still
  obtain ⟨-, -, rfl⟩ := Converge.converge_eq_ok previewed
  have dry : (opts.run true).dryRun = true := rfl
  obtain ⟨inspected, -⟩ := Converge.worldOf_inspected host l w dry
  have context : Context.Warned (Converge.enter (opts.run false) (Converge.worldOf host (opts.run true) l w).context)
      (Converge.enter (opts.run false) w.context) := by
    rw [inspected.context]
    rfl
  exact Converge.run_akin like ⟨still, context⟩

end

/-- A real run takes place just if one was agreed to or asked for, and a dry run found it worthwhile. Without one there
is only the dry run, which changes nothing. Where looking and the commands of the guards leave no trace, the dry run
leaves none, and the real run after it gives the report, the system and the environment that it gives without it. -/
theorem execute_heeds_consent {result : Except ExecutionError Execution} {shown : Display.Output} {last : World σ}
    (ran : w.run (execute host consent l opts) = ((result, shown), last)) :
    ((∃ report, result = .ok (.applied report)) ↔
      ∃ preview mid, w.run (converge host l (opts.run true)).run = (.ok preview, mid) ∧
        Approved opts consent preview) ∧
    ((∀ report, result ≠ .ok (.applied report)) →
      last = (w.run (converge host l (opts.run true)).run).2 ∧ Adds (l.Harmless w.context.env) w last ∧
        last.context.env = w.context.env) ∧
    ∀ R : σ → σ → Prop, host.Likeness R →
      (∀ c, l.Harmless w.context.env c → R (host.answer c w.machine).2 w.machine) →
      ((∀ report, result ≠ .ok (.applied report)) → R last.machine w.machine) ∧
      ∀ report, result = .ok (.applied report) →
        ∃ direct, w.run (converge host l (opts.run false)).run = (.ok report, direct) ∧
          R last.machine direct.machine ∧ last.context.env = direct.context.env := by
  obtain ⟨⟨made, log, -, allowed⟩, env⟩ := previewed_made host l opts w
  have adds : Adds (l.Harmless w.context.env) w (w.run (converge host l (opts.run true)).run).2 := ⟨made, log, allowed⟩
  have still : ∀ R, host.Likeness R → (∀ c, l.Harmless w.context.env c → R (host.answer c w.machine).2 w.machine) →
      R (w.run (converge host l (opts.run true)).run).2.machine w.machine :=
    fun R like quiet => previewed_quiet opts like quiet
  rcases previewed : w.run (converge host l (opts.run true)).run with ⟨e | preview, mid⟩
  · rw [previewed] at adds env still
    rw [execute_refused previewed] at ran
    cases ran
    refine ⟨by simp, fun _ => ⟨rfl, adds, env⟩, fun R like quiet => ⟨fun _ => still R like quiet, by simp⟩⟩
  · rw [previewed] at adds env still
    -- With consent the real run is that of the list; without it nothing follows the dry run.
    by_cases approved : Approved opts consent preview
    · obtain ⟨more, applied⟩ := execute_approved previewed approved
      rw [applied] at ran
      cases ran
      have valid := (Converge.converge_eq_ok previewed).1
      refine ⟨⟨fun _ => ⟨preview, mid, rfl, approved⟩, fun _ => ⟨_, rfl⟩⟩,
        fun other => absurd rfl (other _), fun R like quiet => ⟨fun other => absurd rfl (other _), ?_⟩⟩
      intro report same
      cases same
      obtain ⟨report, akin⟩ := real_run_akin like quiet previewed
      refine ⟨_, ?_, akin.machine, ?_⟩
      · rw [report]
        exact run_converge_of_valid host valid false w
      · rw [akin.context]
    · obtain ⟨other, more, notApplied, stopped⟩ := execute_not_approved previewed approved
      rw [stopped] at ran
      cases ran
      refine ⟨⟨fun ⟨report, went⟩ => absurd went (notApplied report), ?_⟩, fun _ => ⟨rfl, adds, env⟩,
        fun R like quiet => ⟨fun _ => still R like quiet, fun report went => absurd went (notApplied report)⟩⟩
      rintro ⟨_, _, same, approval⟩
      cases same
      exact absurd approval approved

def driftedWorld : World Machine :=
  { settledWorld with machine := { settledWorld.machine with files := [("/etc/app.conf", { content := "off" })] } }

open Converge in
theorem execute_heeds_consent_drifted :
    ∃ report shown last direct,
      driftedWorld.run (execute Machine.host (.ok true) settledList {}) = ((.ok (.applied report), shown), last) ∧
        driftedWorld.run (converge Machine.host settledList {}).run = (.ok report, direct) ∧
        Machine.SameButJournal last.machine direct.machine := by
  have valid : settledList.validate .perKind = .ok () := by rfl
  have pending : (reportOf Machine.host { dryRun := true } settledList driftedWorld).pendingChanges ≠ [] := by
    decide +kernel
  have quiet : ∀ c, settledList.Harmless driftedWorld.context.env c →
      Machine.SameButJournal (Machine.host.answer c driftedWorld.machine).2 driftedWorld.machine := by
    rintro c ⟨mutates, guards⟩
    by_cases isRun : c.isRun = true
    · obtain ⟨r, member, g, declared, line, user, cwd, -, rfl⟩ := guards isRun
      exact Machine.run_sameButJournal user cwd _ rfl
    · have kept : (Machine.host.answer c driftedWorld.machine).2 = driftedWorld.machine :=
        Machine.answer_look mutates (Bool.eq_false_iff.mpr isRun) _
      rw [kept]
      exact Machine.SameButJournal.likeness.refl _
  rcases ran : driftedWorld.run (execute Machine.host (.ok true) settledList {}) with ⟨⟨result, shown⟩, last⟩
  obtain ⟨goes, -, after⟩ := execute_heeds_consent ran
  obtain ⟨report, applied⟩ := goes.mpr ⟨_, _, converge_of_valid valid driftedWorld, ⟨rfl, Or.inr pending⟩, Or.inr rfl⟩
  obtain ⟨direct, alone, same, -⟩ := (after _ Machine.SameButJournal.likeness quiet).2 report applied
  exact ⟨report, shown, last, direct, by rw [applied], alone, same⟩

end Execution

end Provision
