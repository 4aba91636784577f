import Provision.Proofs.RunOrder

namespace Provision

variable {σ α β : Type} {host : Host σ}

/-- What looking and running the commands, in their order, make of a world. -/
structure Inspected (host : Host σ) (commands : List Call) (w last : World σ) : Prop where
  calls : ∃ made, last.calls = w.calls ++ made ∧ last.machine = host.leads w.machine made ∧
    (∀ c ∈ made, c.mutates = false) ∧ made.filter Call.isRun = commands
  context : last.context = { w.context with warnings := last.context.warnings }

namespace Inspected

variable {commands more : List Call} {w next last : World σ}

theorem refl (w : World σ) : Inspected host [] w w := ⟨⟨[], by simp [Host.leads]⟩, rfl⟩

theorem env (inspected : Inspected host commands w last) : last.context.env = w.context.env := by
  rw [inspected.context]

theorem dryRun (inspected : Inspected host commands w last) : last.context.dryRun = w.context.dryRun := by
  rw [inspected.context]

theorem trans (before : Inspected host commands w next) (after : Inspected host more next last) :
    Inspected host (commands ++ more) w last := by
  obtain ⟨made, log, machine, harmless, ran⟩ := before.calls
  obtain ⟨rest, restLog, restMachine, restHarmless, restRan⟩ := after.calls
  refine ⟨⟨made ++ rest, ?_, ?_, ?_, ?_⟩, ?_⟩
  · rw [restLog, log, List.append_assoc]
  · rw [restMachine, machine, Host.leads_append]
  · intro c member
    rcases List.mem_append.mp member with here | later
    · exact harmless c here
    · exact restHarmless c later
  · rw [List.filter_append, ran, restRan]
  · have first := before.context
    have second := after.context
    rw [second, first]

theorem look {c : Call} (looks : c.OnlyLooks) (w : World σ) : Inspected host [] w (w.after host c) :=
  ⟨⟨[c], rfl, rfl, by simp [looks.1], by simp [looks.2]⟩, rfl⟩

theorem command (line : String) (user cwd : Option String) (env : SortedMap String) (w : World σ) :
    Inspected host [.run line user cwd env] w (w.after host (.run line user cwd env)) :=
  ⟨⟨[.run line user cwd env], rfl, rfl, by simp [Call.mutates], rfl⟩, rfl⟩

theorem silent {events : List Event} {warnings : List String} (inspected : Inspected host commands w next) :
    Inspected host commands w { next with context := { next.context with warnings }, events } := by
  have context := inspected.context
  exact ⟨inspected.calls, congrArg (fun x : Context => { x with warnings }) context⟩

end Inspected

theorem Looks.inspected {P : Call → Prop} {x : StateM (World σ) α} (composed : Looks host P x)
    (looks : ∀ c, P c → c.OnlyLooks) (w : World σ) : Inspected host [] w (w.run x).2 := by
  induction composed generalizing w with
  | read f => exact .refl w
  | call c made => exact .look (looks c made) w
  | emit e => exact (Inspected.refl w).silent
  | context g warned => exact ⟨(Inspected.refl w).calls, warned w.context⟩
  | bind _ answers _ _ ihFirst ihRest => exact (ihFirst w).trans (ihRest _ (answers w) _)

variable (host)

theorem Spec.check_inspected (spec : Spec) (name : String) (w : World σ) :
    Inspected host [] w (w.run (spec.check host name).run).2 :=
  (spec.check_looks host name).inspected (fun _ => And.right) w

def Check.commands (env : Environment) : Check → List Call
  | .command line user cwd => [.run line user cwd env.vars]
  | .fileExists _ | .ownedBy .. | .fileContains .. => []

def Resource.guardCommands (env : Environment) (r : Resource) : List Call :=
  r.allGuards.flatMap (·.check.commands env)

theorem World.run_decide (w : World σ) (x : Action σ α) (f : α → β) :
    (w.run (do return f (← x) : Action σ β).run).2 = (w.run x.run).2 := by
  rw [World.try_bind]
  rcases w.run x.run with ⟨e | a, next⟩ <;> rfl

theorem Check.evaluate_inspected (check : Check) (w : World σ) :
    Inspected host (check.commands w.context.env) w (w.run (check.evaluate host).run).2 := by
  cases check with
  | command line user cwd =>
    rw [Check.evaluate, World.run_decide]
    exact .command line user cwd w.context.env.vars w
  | fileExists path => exact .look ⟨rfl, rfl⟩ w
  | ownedBy path owner =>
    rw [Check.evaluate, World.run_decide]
    exact .look ⟨rfl, rfl⟩ w
  | fileContains path pattern =>
    simp only [Check.evaluate]
    cases Pattern.parse pattern with
    | error m => exact .refl w
    | ok p =>
      rw [World.run_decide]
      exact .look ⟨rfl, rfl⟩ w

theorem Guard.evaluateEach_inspected (guards : List Guard) (w : World σ) :
    Inspected host (guards.flatMap (·.check.commands w.context.env)) w (w.run (evaluateEach host guards)).2 := by
  induction guards generalizing w with
  | nil => exact .refl w
  | cons g rest ih =>
    have first := g.check.evaluate_inspected host w
    have later := ih (w.run (g.check.evaluate host).run).2
    rw [first.env] at later
    exact first.trans later

namespace Converge

variable (opts : RunOptions)

theorem verdictOf_inspected (r : Resource) (w : World σ) :
    Inspected host (r.guardCommands w.context.env) w (w.run (verdictOf host opts r)).2 :=
  Guard.evaluateEach_inspected host r.allGuards w

/-- After the guards a dry run only looks, and comes to no change. -/
theorem concluded_inspected (r : Resource) {w : World σ} (dry : w.context.dryRun = true) (verdict : Except Error Verdict) :
    Inspected host [] w (concluded host r w verdict).2 ∧ (concluded host r w verdict).1.isChange = false := by
  rcases verdict with e | _ | reason
  · exact ⟨.refl w, rfl⟩
  · have checked := r.spec.check_inspected host r.name (told r .guardChecked w)
    simp only [concluded, dry, ↓reduceIte]
    refine ⟨⟨checked.calls, checked.context⟩, ?_⟩
    rcases ((told r .guardChecked w).run (r.spec.check host r.name).run).1 with e | _ | change <;> rfl
  · exact ⟨⟨(Inspected.refl w).calls, rfl⟩, rfl⟩

theorem resourceOutcome_inspected (r : Resource) {w : World σ} (dry : w.context.dryRun = true) :
    Inspected host (r.guardCommands w.context.env) w (w.run (resourceOutcome host opts r)).2 ∧
      (w.run (resourceOutcome host opts r)).1.isChange = false := by
  have guarded := verdictOf_inspected host opts r w
  obtain ⟨after, noChange⟩ := concluded_inspected host r (guarded.dryRun.trans dry)
    (w.run (verdictOf host opts r)).1
  rw [run_resourceOutcome]
  have both := guarded.trans after
  rw [List.append_nil] at both
  exact ⟨both, noChange⟩

theorem oneResource_inspected (r : Resource) {w : World σ} (dry : w.context.dryRun = true) :
    Inspected host (r.guardCommands w.context.env) w (w.run (oneResource host opts r)).2 ∧
      (w.run (oneResource host opts r)).1.outcome.isChange = false := by
  have opening : Inspected host [] w (opened r w) := (Inspected.refl w).silent
  obtain ⟨after, noChange⟩ := resourceOutcome_inspected host opts r (opening.dryRun.trans dry)
  rw [opening.env] at after
  rw [run_oneResource]
  exact ⟨(opening.trans after).silent, noChange⟩

theorem eachResource_inspected (rs : List Resource) {w : World σ} (dry : w.context.dryRun = true) :
    Inspected host ((rs.take (w.run (eachResource host opts rs)).1.length).flatMap (·.guardCommands w.context.env))
        w (w.run (eachResource host opts rs)).2 ∧
      ∀ x ∈ (w.run (eachResource host opts rs)).1, x.outcome.isChange = false := by
  induction rs generalizing w with
  | nil => exact ⟨.refl w, by simp [eachResource]⟩
  | cons r rest ih =>
    obtain ⟨first, noChange⟩ := oneResource_inspected host opts r dry
    rw [run_eachResource_cons]
    by_cases stops : (w.run (oneResource host opts r)).1.aborts = true
    · rw [if_pos stops]
      exact ⟨by simpa using first, by simpa using noChange⟩
    · obtain ⟨later, noLaterChange⟩ := ih (first.dryRun.trans dry)
      rw [first.env] at later
      rw [if_neg stops]
      refine ⟨first.trans later, ?_⟩
      intro x member
      rcases List.mem_cons.mp member with rfl | member
      · exact noChange
      · exact noLaterChange x member

variable {opts}

theorem worldOf_inspected (l : RunList) (w : World σ) (dry : opts.dryRun = true) :
    Inspected host ((l.resources.take (reportOf host opts l w).resources.length).flatMap
        (·.guardCommands w.context.env)) (entered opts l w) (worldOf host opts l w) ∧
      ∀ x ∈ (reportOf host opts l w).resources, x.outcome.isChange = false := by
  have entered_dry : (entered opts l w).context.dryRun = true := dry
  obtain ⟨taken, noChange⟩ := eachResource_inspected host opts l.resources entered_dry
  refine ⟨?_, noChange⟩
  have still : (notified host opts l w).2 = (walked host opts l w).2 := by rw [notified_dry dry]
  unfold worldOf
  rw [still]
  exact ⟨taken.calls, taken.context⟩

end Converge

/-- What the report of a dry run from `w` tells, and what the dry run left. -/
structure RunReport.Previews (l : RunList) (w : World σ) (report : RunReport) (last : World σ) : Prop where
  reached : report.resources.map ResourceReport.identity =
    (l.resources.take report.resources.length).map Resource.identity
  /-- No call was meant to change the system, and only commands of guards were run: those of the resources that
  were reached, each once and in order. -/
  calls : ∃ made, last.calls = w.calls ++ made ∧ (∀ c ∈ made, c.mutates = false) ∧ made.filter Call.isRun =
    (l.resources.take report.resources.length).flatMap (·.guardCommands w.context.env)
  notifications : report.notifications = []
  env : last.context.env = w.context.env
  noChange : ∀ x ∈ report.resources, ∀ detail, x.outcome ≠ .converged detail

open Converge in
/-- A dry run changes nothing, whatever the system answers. -/
theorem dryRun_changes_nothing (host : Host σ) (opts : RunOptions) (l : RunList) (w : World σ) :
    match w.run (converge host l { opts with dryRun := true }).run with
    | (.error _, last) => last = w
    | (.ok report, last) => report.Previews l w last := by
  rw [run_converge]
  cases valid : l.validate opts.nameScope with
  | error e => simp only
  | ok =>
    simp only
    have dry : ({ opts with dryRun := true } : RunOptions).dryRun = true := rfl
    obtain ⟨inspected, noChange⟩ := worldOf_inspected host l w dry
    obtain ⟨made, log, -, harmless, ran⟩ := inspected.calls
    refine ⟨(walked_walk l w).inOrder, ⟨made, log, harmless, ran⟩, ?_, inspected.env, ?_⟩
    · simp [reportOf, notified_dry]
    · intro x member detail converged
      have change := noChange x member
      rw [converged] at change
      cases change

end Provision
