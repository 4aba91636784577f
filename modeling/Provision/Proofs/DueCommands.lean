import Provision.Machine.Basic
import Provision.Proofs.RunOrder

namespace Provision

variable {σ : Type}

namespace Converge

/-- The world in which notifications start: every resource of the reports was taken. -/
def afterResources (host : Host σ) (opts : RunOptions) (l : RunList) (w : World σ) (report : RunReport) : World σ :=
  inTurn host opts (entered opts l w) (l.resources.take report.resources.length)

def notificationCall (settled : World σ) (n : NotificationReport) : Call :=
  .notification settled.context.env n.command

/-- The machine answered the notification at an index of the report, after those before it, and the command ended
with status zero. -/
def EndedWell (host : Host σ) (settled : World σ) (reports : List NotificationReport) (i : Nat) (command : String) :
    Prop :=
  ∃ output, (host.answer (.notification settled.context.env command)
    (host.leads settled.machine ((reports.take i).map (notificationCall settled)))).1 = .ok output ∧ output.exit = 0

theorem notifyAll_each (host : Host σ) (commands : List String) (w : World σ) :
    ∀ i n, (w.run (notifyAll host commands)).1[i]? = some n →
      (n.success = true ↔ EndedWell host w (w.run (notifyAll host commands)).1 i n.command) := by
  induction commands generalizing w with
  | nil =>
    intro i n here
    simp [notifyAll] at here
  | cons command rest ih =>
    have first : (NotificationReport.ofReply command
        (host.answer (.notification w.context.env command) w.machine).1).success = true ↔
          ∃ output, (host.answer (.notification w.context.env command) w.machine).1 = .ok output ∧ output.exit = 0 := by
      rw [NotificationReport.ofReply_success]
      simp only [CommandOutput.succeeded, beq_iff_eq]
    rw [run_notifyAll_cons, run_notify]
    split
    · rintro (_ | i) n here
      · cases here
        rw [first, NotificationReport.ofReply_command]
        rfl
      · -- The later commands meet a machine that has answered this one.
        have later := ih (w.after host (.notification w.context.env command)) i n here
        rw [later]
        simp only [EndedWell, World.after_context, List.take_succ_cons, List.map_cons, notificationCall,
          NotificationReport.ofReply_command]
        rfl
    · rintro (_ | i) n here
      · cases here
        rw [first, NotificationReport.ofReply_command]
        rfl
      · simp at here

theorem Ended.commands {commands : List String} {reports : List NotificationReport} (h : Ended commands reports) :
    reports.map (·.command) <+: commands := by
  rcases h with _ | ⟨before, bad, after, detail⟩
  · simp [Function.comp_def]
  · exact ⟨after, by simp [Function.comp_def]⟩

theorem Ended.goesOn {commands : List String} {reports : List NotificationReport} (h : Ended commands reports) :
    ∀ n ∈ reports.dropLast, n.success = true := by
  rcases h with _ | ⟨before, bad, after, detail⟩
  · intro n member
    obtain ⟨command, -, rfl⟩ := List.mem_map.mp (List.dropLast_subset _ member)
    rfl
  · rw [List.dropLast_concat]
    intro n member
    obtain ⟨command, -, rfl⟩ := List.mem_map.mp member
    rfl

theorem Ended.whole {commands : List String} {reports : List NotificationReport} (h : Ended commands reports) :
    reports.map (·.command) = commands ∨ ∃ n, reports.getLast? = some n ∧ n.success = false := by
  rcases h with _ | ⟨before, bad, after, detail⟩
  · exact Or.inl (by simp [Function.comp_def])
  · exact Or.inr ⟨⟨bad, false, detail⟩, by simp, rfl⟩

end Converge

open Converge

/-- What becomes of the commands that are due in the run of a valid list from `w` that left `last`. -/
structure RunReport.Announces (host : Host σ) (opts : RunOptions) (l : RunList) (w : World σ)
    (report : RunReport) (last : World σ) (commands : List String) : Prop where
  due : FirstOccurrences (asked l.resources report.resources) commands
  asker : ∀ command ∈ commands, ∃ (r : Resource) (x : ResourceReport) (detail : String),
    (r, x) ∈ l.resources.zip report.resources ∧ x.outcome = .converged detail ∧ command ∈ r.notifies
  /-- A run that a resource ended makes no call after those of its resources. -/
  silent : (∃ x ∈ report.resources, x.Fatal) →
    report.notifications = [] ∧ last.calls = (afterResources host opts l w report).calls
  /-- A real run that no resource ended takes every resource, then makes the calls that it reports and no other. -/
  afterwards : opts.dryRun = false → (¬ ∃ x ∈ report.resources, x.Fatal) →
    report.resources.length = l.resources.length ∧ last.calls = (afterResources host opts l w report).calls ++
      report.notifications.map (notificationCall (afterResources host opts l w report))
  inOrder : report.notifications.map (·.command) <+: commands
  ended : ∀ i n, report.notifications[i]? = some n →
    (n.success = true ↔ EndedWell host (afterResources host opts l w report) report.notifications i n.command)
  goesOn : ∀ n ∈ report.notifications.dropLast, n.success = true
  whole : opts.dryRun = false → (¬ ∃ x ∈ report.resources, x.Fatal) →
    report.notifications.map (·.command) = commands ∨
      ∃ n, report.notifications.getLast? = some n ∧ n.success = false
  completed : opts.dryRun = false → (¬ ∃ x ∈ report.resources, x.Fatal) →
    (report.state = .completed ↔
      report.notifications.map (·.command) = commands ∧ ∀ n ∈ report.notifications, n.success = true)

namespace Converge

variable {host : Host σ} {opts : RunOptions} {l : RunList} {w : World σ}

theorem afterResources_eq : afterResources host opts l w (reportOf host opts l w) = (walked host opts l w).2 :=
  (walked_walk l w).world.symm

theorem notified_real (real : opts.dryRun = false) (fine : ¬ ∃ x ∈ (walked host opts l w).1, x.Fatal) :
    notified host opts l w =
      (walked host opts l w).2.run (notifyAll host (due l.resources (walked host opts l w).1)) := by
  have goesOn : (walked host opts l w).1.any ResourceReport.aborts = false := by
    refine Bool.eq_false_iff.mpr fun stops => ?_
    obtain ⟨x, final, fatal⟩ := (walked_walk l w).any_aborts.mp stops
    exact fine ⟨x, List.mem_of_getLast? final, fatal⟩
  simp [notified, goesOn, real]

theorem notified_cases (host : Host σ) (opts : RunOptions) (l : RunList) (w : World σ) :
    notified host opts l w = ([], (walked host opts l w).2) ∨
      notified host opts l w =
        (walked host opts l w).2.run (notifyAll host (due l.resources (walked host opts l w).1)) := by
  unfold notified
  split
  · exact Or.inl rfl
  · exact Or.inr rfl

theorem announced_due (l : RunList) (w : World σ) (command : String)
    (member : command ∈ due l.resources (walked host opts l w).1) :
    ∃ (r : Resource) (x : ResourceReport) (detail : String),
      (r, x) ∈ l.resources.zip (walked host opts l w).1 ∧ x.outcome = .converged detail ∧ command ∈ r.notifies := by
  obtain ⟨r, x, both, change, asks⟩ := mem_due.mp member
  cases outcome : x.outcome with
  | converged detail => exact ⟨r, x, detail, both, outcome, asks⟩
  | unchanged | skipped | failed => simp [outcome, Outcome.isChange] at change

theorem completed_iff (real : opts.dryRun = false) (fine : ¬ ∃ x ∈ (walked host opts l w).1, x.Fatal) :
    finalState host opts l w = .completed ↔
      (notified host opts l w).1.map (·.command) = due l.resources (walked host opts l w).1 ∧
        ∀ n ∈ (notified host opts l w).1, n.success = true := by
  have ended : Ended (due l.resources (walked host opts l w).1) (notified host opts l w).1 := by
    rw [notified_real real fine]
    exact notifyAll_ended host _ _
  have finished : finalState host opts l w = .completed ↔ ∀ n ∈ (notified host opts l w).1, n.success = true := by
    rw [finalState_completed_iff, ne_eq, finalState_aborted_iff, not_or]
    constructor
    · intro good n member
      cases success : n.success with
      | true => rfl
      | false => exact absurd ⟨n, member, success⟩ good.2
    · intro all
      refine ⟨?_, ?_⟩
      · rintro ⟨x, final, fatal⟩
        exact fine ⟨x, List.mem_of_getLast? final, fatal⟩
      · rintro ⟨n, member, failed⟩
        rw [all n member] at failed
        cases failed
  rw [finished]
  refine ⟨fun all => ⟨?_, all⟩, And.right⟩
  rw [ended.all_of_success all]
  simp [Function.comp_def]

theorem reportOf_announces (host : Host σ) (opts : RunOptions) (l : RunList) (w : World σ) :
    (reportOf host opts l w).Announces host opts l w (worldOf host opts l w)
      (due l.resources (walked host opts l w).1) := by
  have walk : Walk host opts l.resources _ _ _ := walked_walk l w
  have cases := notified_cases host opts l w
  refine
    { due := due_firsts _ _
      asker := announced_due l w
      silent := ?_
      afterwards := ?_
      inOrder := ?_
      ended := ?_
      goesOn := ?_
      whole := ?_
      completed := ?_ }
  · rintro ⟨x, member, fatal⟩
    have silent := notified_of_fatal (walk.fatal_last member fatal) fatal
    rw [afterResources_eq]
    exact ⟨by simp [reportOf, silent], congrArg (fun r => r.2.calls) silent⟩
  · intro real fine
    rw [afterResources_eq]
    refine ⟨?_, ?_⟩
    · rcases walk.whole with full | ⟨x, final, fatal⟩
      · exact full
      · exact absurd ⟨x, List.mem_of_getLast? final, fatal⟩ fine
    · change (notified host opts l w).2.calls = _ ++ (notified host opts l w).1.map _
      rw [notified_real real fine]
      exact notifyAll_calls host _ _
  · change (notified host opts l w).1.map _ <+: _
    -- Either no command was run, or those run are the first of the due ones.
    rcases cases with none | ran
    · rw [none]
      exact List.nil_prefix
    · rw [ran]
      exact (notifyAll_ended host _ _).commands
  · rw [afterResources_eq]
    change ∀ i n, (notified host opts l w).1[i]? = some n → (_ ↔ EndedWell _ _ (notified host opts l w).1 _ _)
    rcases cases with none | ran
    · rw [none]
      simp
    · rw [ran]
      exact notifyAll_each host _ _
  · change ∀ n ∈ (notified host opts l w).1.dropLast, _
    rcases cases with none | ran
    · rw [none]
      simp
    · rw [ran]
      exact (notifyAll_ended host _ _).goesOn
  · intro real fine
    change (notified host opts l w).1.map _ = _ ∨ ∃ n, (notified host opts l w).1.getLast? = some n ∧ _
    rw [notified_real real fine]
    exact (notifyAll_ended host _ _).whole
  · exact completed_iff

end Converge

/-- The run of a valid list gives a report, and what is due at its end is announced. -/
theorem converge_announces (host : Host σ) (opts : RunOptions) (l : RunList) (w : World σ)
    (valid : l.validate opts.nameScope = .ok ()) :
    ∃ report last commands, w.run (converge host l opts).run = (.ok report, last) ∧
      report.Announces host opts l w last commands :=
  ⟨_, _, _, converge_of_valid valid w, reportOf_announces host opts l w⟩

def sharedList : RunList :=
  ⟨[.ofResource
      { name := "site"
        spec := .renderedFile ⟨"/etc/site.conf", "site.j2", []⟩
        notifies := ["reload", "restart"] } [],
    .ofResource
      { name := "build"
        spec := .command { command := "build" }
        bestEffort := true
        notifies := ["publish"] } [],
    .ofResource
      { name := "pool"
        spec := .renderedFile ⟨"/etc/pool.conf", "pool.j2", []⟩
        notifies := ["restart", "purge"] } []]⟩

def sharedWorld : World Machine where
  machine := { Machine.empty with
    commands := [("build", { output := ⟨1, "", ""⟩ }), ("restart", { output := ⟨1, "", ""⟩ })] }
  context := ⟨false, false, .empty, .object [], .warn, []⟩
  calls := []
  events := []

theorem converge_announces_shared :
    sharedList.validate .perKind = .ok () ∧ ∃ report last commands,
      sharedWorld.run (converge Machine.host sharedList {}).run = (.ok report, last) ∧
        report.Announces Machine.host {} sharedList sharedWorld last commands ∧
        "purge" ∈ commands ∧ "publish" ∉ commands ∧
        report.notifications.map (·.command) = ["reload", "restart"] ∧ report.state = .aborted := by
  have valid : sharedList.validate .perKind = .ok () := by rfl
  obtain ⟨report, last, commands, ran, announces⟩ := converge_announces Machine.host {} sharedList sharedWorld valid
  have same : report = reportOf Machine.host {} sharedList sharedWorld := (converge_eq_ok ran).2.1
  have demanded : asked sharedList.resources report.resources = ["reload", "restart", "restart", "purge"] := by
    rw [same]
    decide +kernel
  refine ⟨valid, report, last, commands, ran, announces, ?_, ?_, ?_, ?_⟩
  · rw [announces.due.mem_iff, demanded]
    decide
  · rw [announces.due.mem_iff, demanded]
    decide
  · rw [same]
    decide +kernel
  · rw [same]
    decide +kernel

end Provision
