import Provision.Proofs.Progress

namespace Provision

variable {σ α : Type} {host : Host σ}

namespace Environment

theorem foldl_step (bindings : List Binding) (env : Environment) (r : Insertion) :
    (bindings.foldl step (env, r)).1 = (env.insertAll bindings).1 := by
  have direct : (bindings.foldl step (env, r)).1 = _ := (table.steps_eq bindings env r).1
  have fresh : (env.insertAll bindings).1 = _ := (table.pass_eq env bindings).1
  rw [direct, fresh]

theorem insertAll_append (env : Environment) (bindings more : List Binding) :
    (env.insertAll (bindings ++ more)).1 = ((env.insertAll bindings).1.insertAll more).1 := by
  rw [← foldl_step more _ (env.insertAll bindings).2]
  exact congrArg Prod.fst List.foldl_append

theorem insertIfAbsent_of_held {env : Environment} {key existing : String} (held : env.get? key = some existing)
    (value : String) : (env.insertIfAbsent key value).2 = env := by
  have there : env.vars.contains key = true := by
    unfold get? SortedMap.get? at held
    simp [SortedMap.contains, held]
  simp [insertIfAbsent, there]

theorem get?_insertIfAbsent (env : Environment) (b : Binding) (key : String) :
    (env.insertIfAbsent b.key b.value).2.get? key =
      (env.get? key).or (if b.key = key then some b.value else none) := by
  cases held : env.get? b.key with
  | some existing =>
    rw [insertIfAbsent_of_held held]
    by_cases own : b.key = key
    · rw [← own, held]
      rfl
    · rw [if_neg own, Option.or_none]
  | none =>
    rw [insertIfAbsent_of_none held]
    by_cases own : b.key = key
    · rw [if_pos own, ← own, held]
      exact SortedMap.get?_insert_self _ _ _
    · rw [if_neg own, Option.or_none]
      exact SortedMap.get?_insert_of_ne _ _ (Ne.symm own)

theorem insertAll_single (env : Environment) (b : Binding) :
    (env.insertAll [b]).1 = (env.insertIfAbsent b.key b.value).2 := by
  change (step (env, .none) b).1 = _
  unfold step
  cases held : env.get? b.key with
  | none => rfl
  | some existing => exact (insertIfAbsent_of_held held b.value).symm

theorem get?_insertAll (env : Environment) (bindings : List Binding) (key : String) :
    (env.insertAll bindings).1.get? key =
      (env.get? key).or ((bindings.find? (·.key = key)).map (·.value)) := by
  induction bindings generalizing env with
  | nil => exact (Option.or_none ..).symm
  | cons b rest ih =>
    rw [← List.singleton_append, insertAll_append, ih, insertAll_single, get?_insertIfAbsent, Option.or_assoc]
    by_cases own : b.key = key <;> simp [own]

theorem get?_overlay (env : Environment) (extra : SortedMap String) (key : String) :
    SortedMap.get? (env.overlay extra) key = (SortedMap.get? (SortedMap.ofList extra) key).or (env.get? key) := by
  unfold overlay SortedMap.ofList get?
  generalize env.vars = vars
  induction extra generalizing vars with
  | nil => rfl
  | cons e rest ih =>
    obtain ⟨k, v⟩ := e
    rw [List.foldl_cons, List.foldl_cons, ih (vars.insert k v), ih (SortedMap.insert [] k v), Option.or_assoc]
    by_cases own : key = k
    · subst own
      simp
    · rw [SortedMap.get?_insert_of_ne _ _ own, SortedMap.get?_insert_of_ne _ _ own]
      rfl

end Environment

def Ran (commands : List Call) (w last : World σ) : Prop :=
  ∃ made, last.calls = w.calls ++ made ∧ made.filter Call.isRun = commands

namespace Ran

variable {commands more : List Call} {w next last : World σ}

theorem of_calls (same : last.calls = w.calls) : Ran [] w last := ⟨[], by simp [same], rfl⟩

theorem trans (before : Ran commands w next) (after : Ran more next last) : Ran (commands ++ more) w last := by
  obtain ⟨made, log, here⟩ := before
  obtain ⟨rest, restLog, later⟩ := after
  exact ⟨made ++ rest, by rw [restLog, log, List.append_assoc], by rw [List.filter_append, here, later]⟩

end Ran

theorem Adds.ran {P : Call → Prop} {w last : World σ} (adds : Adds P w last)
    (noRun : ∀ c, P c → c.isRun = false) : Ran [] w last := by
  obtain ⟨made, log, allowed⟩ := adds
  refine ⟨made, log, List.filter_eq_nil_iff.mpr fun c member => ?_⟩
  rw [noRun c (allowed c member)]
  nofun

theorem Inspected.ran {commands : List Call} {w last : World σ} (inspected : Inspected host commands w last) :
    Ran commands w last := by
  obtain ⟨made, log, -, -, here⟩ := inspected.calls
  exact ⟨made, log, here⟩

theorem Looks.env {P : Call → Prop} {x : StateM (World σ) α} (looks : Looks host P x) (w : World σ) :
    (w.run x).2.context.env = w.context.env := by
  induction looks generalizing w with
  | read f => rfl
  | call c made => rfl
  | emit e => rfl
  | context g warned => rw [World.run, warned w.context]
  | bind _ answers _ _ ihFirst ihRest => exact (ihRest _ (answers w) _).trans (ihFirst w)

def Spec.environmentBindings : Spec → List Binding
  | .lineEdit e =>
    match e.path, e.replace with
    | none, none => e.bindings
    | _, _ => []
  | _ => []

/-- The bindings that a resource which ended so has offered to the environment. -/
def Spec.offered (spec : Spec) (outcome : Outcome) : List Binding :=
  if outcome.isChange then spec.environmentBindings else []

theorem LineEdit.apply_looks {e : LineEdit} {path : String} (here : e.path = some path) :
    Looks host e.MayCall (e.apply host).run := by
  unfold LineEdit.apply
  cases e.replace with
  | some r => exact (applyReplace_bare host e r).looks
  | none =>
    have previewed : Looks host e.MayCall (e.preview host).run := ((preview_bare host e).mono fun _ => And.left).looks
    refine Composed.tryBind previewed fun r => Composed.tryBind (settle_looks host e r _) fun _ => ?_
    refine Composed.tryBind (insert_bare host here).looks fun r => ?_
    split <;> exact Composed.tryPure _

theorem LineEdit.run_conclusion {e : LineEdit} (here : e.path = none) (v : World σ) : v.run (do
      let r ← e.insert host
      if r.isChanged then return .converged (e.describeInsertion r)
      return .unchanged : Action σ Change).run =
    (.ok (if (v.context.env.insertAll e.bindings).2.isChanged then
        .converged (e.describeInsertion (v.context.env.insertAll e.bindings).2) else .unchanged),
      { v with context := { v.context with env := (v.context.env.insertAll e.bindings).1 } }) := by
  have inserted : v.run (e.insert host).run = (.ok (v.context.env.insertAll e.bindings).2,
      { v with context := { v.context with env := (v.context.env.insertAll e.bindings).1 } }) := by
    unfold LineEdit.insert
    rw [here]
    rfl
  rw [World.try_bind, inserted]
  dsimp only
  split <;> rfl

theorem LineEdit.apply_environment {e : LineEdit} (inserting : e.replace = none) (here : e.path = none) (w : World σ) :
    (w.run (e.apply host).run).2.context.env = (w.context.env.insertAll
      (if (Converge.ofApply (w.run (e.apply host).run).1).isChange then e.bindings else [])).1 := by
  have found : e.found host w = .ok "" := by rw [LineEdit.found, here]
  -- However conflicts are settled, what comes to the insertion comes with the environment of `w`.
  have concluded : ∀ v : World σ, v.context.env = w.context.env → w.run (e.apply host).run = v.run (do
      let r ← e.insert host
      if r.isChanged then return .converged (e.describeInsertion r)
      return .unchanged : Action σ Change).run → (w.run (e.apply host).run).2.context.env =
        (w.context.env.insertAll
          (if (Converge.ofApply (w.run (e.apply host).run).1).isChange then e.bindings else [])).1 := by
    intro v same acted
    rw [acted, run_conclusion here, same]
    by_cases changed : (w.context.env.insertAll e.bindings).2.isChanged = true
    · simp [changed, Converge.ofApply, Outcome.ofChange, Outcome.isChange]
    · rw [if_neg changed]
      exact Environment.insertAll_unchanged (Bool.eq_false_iff.mpr changed)
  have surveyed := run_survey found
  cases policy : e.policy w with
  | warn =>
    rw [policy] at surveyed
    refine concluded (e.noted host "" w) rfl ?_
    rw [apply_eq inserting, World.try_bind, surveyed]
  | fail =>
    rw [policy] at surveyed
    cases conflicts : e.conflicts "" w.context.env with
    | nil =>
      rw [conflicts] at surveyed
      refine concluded (w.afterAll host e.reads) rfl ?_
      rw [apply_eq inserting, World.try_bind, surveyed]
    | cons c rest =>
      rw [conflicts] at surveyed
      rw [apply_eq inserting, World.try_bind, surveyed]
      rfl

namespace Spec

theorem offered_of_no_bindings {spec : Spec} (none : spec.environmentBindings = []) (outcome : Outcome) :
    spec.offered outcome = [] := by
  simp [offered, none]

theorem environmentBindings_of_bindsNothing {spec : Spec} (bindsNothing : spec.BindsNothing) :
    spec.environmentBindings = [] := by
  cases spec with
  | lineEdit e =>
    obtain ⟨r, replacing⟩ := Option.ne_none_iff_exists'.mp (bindsNothing e rfl)
    simp [environmentBindings, replacing]
  | _ => rfl

/-- An action leaves the environment alone unless it is an edit of it that converges. -/
theorem apply_environment (spec : Spec) (name : String) (w : World σ) :
    (w.run (spec.apply host name).run).2.context.env = (w.context.env.insertAll
      (spec.offered (Converge.ofApply (w.run (spec.apply host name).run).1))).1 := by
  by_cases bindsNothing : spec.BindsNothing
  · rw [offered_of_no_bindings (environmentBindings_of_bindsNothing bindsNothing),
      (apply_bare host bindsNothing name).context w]
    rfl
  · obtain ⟨e, rfl, inserting⟩ := binds bindsNothing
    cases here : e.path with
    | none =>
      have bindings : (Spec.lineEdit e).environmentBindings = e.bindings := by
        simp [environmentBindings, here, inserting]
      rw [offered, bindings]
      exact LineEdit.apply_environment inserting here w
    | some path =>
      have bindings : (Spec.lineEdit e).environmentBindings = [] := by simp [environmentBindings, here]
      rw [offered_of_no_bindings bindings]
      exact (LineEdit.apply_looks here).env w

theorem check_environment (spec : Spec) (name : String) (w : World σ) :
    (w.run (spec.check host name).run).2.context.env = w.context.env :=
  (spec.check_looks host name).env w

end Spec

@[reducible] def Command.call (k : Command) (env : Environment) : Call :=
  .run k.command k.user k.cwd (env.overlay k.environment)

/-- What a resource that ended so has run after its guards. An execution that is skipped, or finds what its command
creates, has not run it. -/
def Spec.commands (env : Environment) : Spec → Outcome → List Call
  | .command k, .converged _ => [k.call env]
  | .command k, .failed _ .actionFailed => [k.call env]
  | _, _ => []

def Resource.commands (env : Environment) (r : Resource) (outcome : Outcome) : List Call :=
  r.guardCommands env ++ r.spec.commands env outcome

variable (host) in
theorem Command.run_alreadyCreated (k : Command) (w : World σ) :
    ∃ created next, w.run (k.alreadyCreated host).run = (.ok created, next) ∧ Ran [] w next ∧
      next.context = w.context := by
  cases creates : k.creates with
  | none =>
    refine ⟨false, w, ?_, .of_calls rfl, rfl⟩
    rw [Command.alreadyCreated, creates]
    rfl
  | some path =>
    refine ⟨(host.answer (.pathExists path) w.machine).1, w.after host (.pathExists path), ?_,
      ⟨[.pathExists path], rfl, rfl⟩, rfl⟩
    rw [Command.alreadyCreated, creates]
    rfl

theorem Command.check_ok (k : Command) (w : World σ) : ∃ drift, (w.run (k.check host).run).1 = .ok drift := by
  obtain ⟨created, next, looked, -, -⟩ := k.run_alreadyCreated host w
  rw [Command.check, World.try_bind, looked]
  cases created <;> exact ⟨_, rfl⟩

theorem Command.apply_ran (k : Command) (w : World σ) :
    Ran ((Spec.command k).commands w.context.env (Converge.ofApply (w.run (k.apply host).run).1)) w
      (w.run (k.apply host).run).2 := by
  obtain ⟨created, next, looked, before, same⟩ := k.run_alreadyCreated host w
  rw [Command.apply, World.try_bind, looked]
  cases created with
  | true => exact before
  | false =>
    have called : next.run (runCommand host k.command k.user k.cwd k.environment) =
        ((host.answer (k.call w.context.env) next.machine).1, next.after host (k.call w.context.env)) := by
      rw [← same]
      rfl
    have after : Ran [k.call w.context.env] w (next.after host (k.call w.context.env)) :=
      before.trans ⟨[k.call w.context.env], rfl, rfl⟩
    simp only [Bool.false_eq_true, ↓reduceIte]
    rw [World.try_bind, World.try_ofReply, called]
    cases (host.answer (k.call w.context.env) next.machine).1 with
    | error fault => exact after
    | ok output =>
      dsimp only [Except.mapError]
      split <;> exact after

theorem Rendering.isRun_of_mayCall {path template : String} {c : Call} (may : MayCall path template c) :
    c.isRun = false := by
  rcases may with ⟨context, rfl⟩ | rfl | ⟨contents, rfl⟩ <;> rfl

namespace Spec

theorem commands_of_other {spec : Spec} (other : ∀ k, spec ≠ .command k) (env : Environment) (outcome : Outcome) :
    spec.commands env outcome = [] := by
  cases spec with
  | command k => exact absurd rfl (other k)
  | _ => rfl

theorem isRun_of_mayCall {spec : Spec} (other : ∀ k, spec ≠ .command k) {name : String} {c : Call}
    (may : spec.MayCall name c) : c.isRun = false := by
  cases spec with
  | command k => exact absurd rfl (other k)
  | package p => rcases may with rfl | rfl <;> rfl
  | lineEdit e => obtain ⟨path, -, rfl | ⟨contents, rfl⟩⟩ := may <;> rfl
  | renderedFile f => exact Rendering.isRun_of_mayCall may
  | workingCopy w => rcases may with rfl | rfl <;> rfl
  | scheduledJob j => rcases may with rfl | rfl <;> rfl
  | site s =>
    rcases may with rendered | rfl | rfl | rfl
    · exact Rendering.isRun_of_mayCall rendered
    · rfl
    · rfl
    · rfl
  | ownership o => rcases may with rfl | rfl <;> rfl

theorem apply_ran (spec : Spec) (name : String) (w : World σ) :
    Ran (spec.commands w.context.env (Converge.ofApply (w.run (spec.apply host name).run).1)) w
      (w.run (spec.apply host name).run).2 := by
  cases spec with
  | command k => exact k.apply_ran w
  | _ =>
    rw [commands_of_other (by simp)]
    exact ((apply_acts host _ name).makes.adds w).ran fun c => isRun_of_mayCall (by simp)

theorem check_ran (spec : Spec) (name : String) (w : World σ) :
    Ran (spec.commands w.context.env (Converge.ofCheck (w.run (spec.check host name).run).1)) w
      (w.run (spec.check host name).run).2 := by
  have nothing : spec.commands w.context.env (Converge.ofCheck (w.run (spec.check host name).run).1) = [] := by
    cases spec with
    | command k =>
      obtain ⟨drift, checked⟩ : ∃ drift, (w.run ((Spec.command k).check host name).run).1 = .ok drift :=
        k.check_ok w
      rw [checked]
      cases drift <;> rfl
    | _ => rfl
  rw [nothing]
  exact (spec.check_inspected host name w).ran

end Spec

namespace Converge

variable {opts : RunOptions}

theorem concluded_commands (host : Host σ) (r : Resource) (w : World σ) {verdict : Except Error Verdict}
    (unclear : ∀ e, verdict = .error e → e.category = .guardEvaluation) :
    Ran (r.spec.commands w.context.env (concluded host r w verdict).1) w (concluded host r w verdict).2 ∧
      (concluded host r w verdict).2.context.env =
        (w.context.env.insertAll (r.spec.offered (concluded host r w verdict).1)).1 := by
  rcases verdict with e | _ | reason
  · -- The category tells a failure of the guards from one of the command.
    have nothing : r.spec.commands w.context.env (.ofError e) = [] := by
      rw [Outcome.ofError, unclear e rfl]
      cases r.spec <;> rfl
    rw [concluded, nothing]
    exact ⟨.of_calls rfl, rfl⟩
  · by_cases dry : w.context.dryRun = true
    · simp only [concluded, dry, ↓reduceIte]
      refine ⟨r.spec.check_ran r.name (told r .guardChecked w), ?_⟩
      rw [Spec.check_environment, Spec.offered]
      rcases ((told r .guardChecked w).run (r.spec.check host r.name).run).1 with e | _ | change <;> rfl
    · simp only [concluded, dry, Bool.false_eq_true, ↓reduceIte]
      exact ⟨r.spec.apply_ran r.name (told r .applying (told r .guardChecked w)),
        r.spec.apply_environment r.name (told r .applying (told r .guardChecked w))⟩
  · have nothing : r.spec.commands w.context.env (.skipped reason) = [] := by cases r.spec <;> rfl
    rw [concluded, nothing]
    exact ⟨.of_calls rfl, rfl⟩

variable (host opts) in
theorem oneResource_commands (r : Resource) (w : World σ) :
    Ran (r.commands w.context.env (w.run (oneResource host opts r)).1.outcome) w (w.run (oneResource host opts r)).2 ∧
      (w.run (oneResource host opts r)).2.context.env =
        (w.context.env.insertAll (r.spec.offered (w.run (oneResource host opts r)).1.outcome)).1 := by
  have guarded := verdictOf_inspected host opts r (opened r w)
  obtain ⟨ran, environment⟩ := concluded_commands host r ((opened r w).run (verdictOf host opts r)).2
    fun e failed => verdictOf_error failed
  rw [guarded.env] at ran environment
  rw [run_oneResource, run_resourceOutcome]
  exact ⟨guarded.ran.trans ran, environment⟩

def offers (taken : List (Resource × ResourceReport)) : List Binding :=
  taken.flatMap fun (r, x) => r.spec.offered x.outcome

def environmentAfter (env : Environment) (taken : List (Resource × ResourceReport)) : Environment :=
  (env.insertAll (offers taken)).1

def commandsOf (env : Environment) (taken : List (Resource × ResourceReport)) : List Call :=
  (taken.mapIdx fun i (r, x) => r.commands (environmentAfter env (taken.take i)) x.outcome).flatten

theorem environmentAfter_cons (env : Environment) (r : Resource) (x : ResourceReport)
    (taken : List (Resource × ResourceReport)) : environmentAfter env ((r, x) :: taken) =
      environmentAfter (env.insertAll (r.spec.offered x.outcome)).1 taken := by
  simp only [environmentAfter, offers, List.flatMap_cons]
  exact Environment.insertAll_append env _ _

theorem commandsOf_cons (env : Environment) (r : Resource) (x : ResourceReport)
    (taken : List (Resource × ResourceReport)) : commandsOf env ((r, x) :: taken) =
      r.commands env x.outcome ++ commandsOf (env.insertAll (r.spec.offered x.outcome)).1 taken := by
  simp only [commandsOf, List.mapIdx_cons, List.flatten_cons, List.take_succ_cons, environmentAfter_cons]
  rfl

variable (host opts) in
theorem eachResource_commands (rs : List Resource) (w : World σ) :
    Ran (commandsOf w.context.env (rs.zip (w.run (eachResource host opts rs)).1)) w
        (w.run (eachResource host opts rs)).2 ∧
      (w.run (eachResource host opts rs)).2.context.env =
        environmentAfter w.context.env (rs.zip (w.run (eachResource host opts rs)).1) := by
  induction rs generalizing w with
  | nil => exact ⟨.of_calls rfl, rfl⟩
  | cons r rest ih =>
    obtain ⟨first, environment⟩ := oneResource_commands host opts r w
    rw [run_eachResource_cons]
    split
    · rw [List.zip_cons_cons, List.zip_nil_right, commandsOf_cons, environmentAfter_cons]
      refine ⟨?_, environment⟩
      rw [← List.append_nil (r.commands _ _)] at first
      exact first
    · obtain ⟨later, last⟩ := ih (w.run (oneResource host opts r)).2
      rw [environment] at later last
      rw [List.zip_cons_cons, commandsOf_cons, environmentAfter_cons]
      exact ⟨first.trans later, last⟩

theorem notified_commands (host : Host σ) (opts : RunOptions) (l : RunList) (w : World σ) :
    Ran ((notified host opts l w).1.map (.notification (walked host opts l w).2.context.env ·.command))
        (walked host opts l w).2 (notified host opts l w).2 ∧
      (notified host opts l w).2.context = (walked host opts l w).2.context := by
  rcases notified_cases host opts l w with none | ran
  · rw [none]
    exact ⟨.of_calls rfl, rfl⟩
  · rw [ran, run_notifyAll]
    refine ⟨⟨_, rfl, List.filter_eq_self.mpr fun c member => ?_⟩, rfl⟩
    obtain ⟨n, -, rfl⟩ := List.mem_map.mp member
    rfl

end Converge

open Converge

/-- What the commands of a run from `w` that left `last` were given. -/
structure RunReport.Supplies (l : RunList) (w : World σ) (report : RunReport) (last : World σ) : Prop where
  commands : Ran (commandsOf w.context.env (l.resources.zip report.resources) ++
    report.notifications.map (.notification last.context.env ·.command)) w last
  environment : last.context.env = environmentAfter w.context.env (l.resources.zip report.resources)
  firstWins : ∀ i key, (environmentAfter w.context.env ((l.resources.zip report.resources).take i)).get? key =
    (w.context.env.get? key).or
      (((offers ((l.resources.zip report.resources).take i)).find? (·.key = key)).map (·.value))
  /-- The variables of an execution come before the others. -/
  overlaid : ∀ (k : Command) (env : Environment) key, SortedMap.get? (env.overlay k.environment) key =
    (SortedMap.get? (SortedMap.ofList k.environment) key).or (env.get? key)
  kept : ∀ key value, w.context.env.get? key = some value → last.context.env.get? key = some value

/-- A command is given the variables from before the run and those that resources before it added, whatever the
system answers, and no variable is lost. -/
theorem commands_supplied (host : Host σ) (opts : RunOptions) (l : RunList) (w : World σ) :
    match w.run (converge host l opts).run with
    | (.error _, last) => last = w
    | (.ok report, last) => report.Supplies l w last := by
  rw [run_converge]
  cases valid : l.validate opts.nameScope with
  | error e => simp only
  | ok =>
    simp only
    have firstWins (taken : List (Resource × ResourceReport)) (key : String) :=
      Environment.get?_insertAll w.context.env (offers taken) key
    obtain ⟨taken, environment⟩ := eachResource_commands host opts l.resources (entered opts l w)
    obtain ⟨announced, same⟩ := notified_commands host opts l w
    have left : (worldOf host opts l w).context.env =
        environmentAfter w.context.env (l.resources.zip (reportOf host opts l w).resources) :=
      (congrArg Context.env same).trans environment
    have given : (worldOf host opts l w).context.env = (walked host opts l w).2.context.env := congrArg Context.env same
    refine ⟨?_, left, fun i => firstWins _, fun k env => env.get?_overlay k.environment, ?_⟩
    · rw [given]
      exact taken.trans announced
    · intro key value held
      rw [left]
      exact (firstWins _ key).trans (by rw [held]; rfl)

def stagedList : RunList :=
  ⟨[.ofResource { name := "early", spec := .command { command := "early" } } [],
    .ofResource
      { name := "stage", spec := .lineEdit { bindings := [⟨"STAGE", "test"⟩, ⟨"LANG", "de"⟩] } } [],
    .ofResource { name := "again", spec := .lineEdit { bindings := [⟨"STAGE", "live"⟩, ⟨"DEPTH", "1"⟩] } } [],
    .ofResource
      { name := "build"
        spec := .command { command := "build", environment := [("STAGE", "own")] }
        notifies := ["restart"] } []]⟩

def stagedWorld : World Machine where
  machine := Machine.empty
  context := ⟨false, false, .ofList [("LANG", "C")], .object [], .warn, []⟩
  calls := []
  events := []

def World.commandLines (w : World σ) : List (String × SortedMap String) :=
  w.calls.filterMap fun
    | .run command _ _ env => some (command, env)
    | _ => none

example : (stagedWorld.run (converge Machine.host stagedList {}).run).2.commandLines =
    [("early", [("LANG", "C")]), ("build", [("DEPTH", "1"), ("LANG", "C"), ("STAGE", "own")]),
      ("restart", [("DEPTH", "1"), ("LANG", "C"), ("STAGE", "test")])] := by
  decide +kernel

end Provision
