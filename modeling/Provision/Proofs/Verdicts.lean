import Provision.Proofs.Foresight
import Provision.Proofs.MachineHost
import Provision.Proofs.Preview

namespace Provision

variable {σ α β : Type} {host : Host σ}

def World.afterAll (host : Host σ) (w : World σ) (calls : List Call) : World σ :=
  { w with machine := host.leads w.machine calls, calls := w.calls ++ calls }

@[simp] theorem World.afterAll_context (w : World σ) (calls : List Call) :
    (w.afterAll host calls).context = w.context := rfl

theorem World.afterAll_nil (w : World σ) : w.afterAll host [] = w := by
  simp [afterAll, Host.leads]

theorem World.afterAll_append (w : World σ) (calls more : List Call) :
    (w.afterAll host calls).afterAll host more = w.afterAll host (calls ++ more) := by
  simp [afterAll, Host.leads_append]

def Check.calls (env : Environment) : Check → List Call
  | .command line user cwd => [.run line user cwd env.vars]
  | .fileExists path => [.pathExists path]
  | .ownedBy path _ => [.owner path]
  | .fileContains path pattern =>
    match Pattern.parse pattern with
    | .ok _ => [.read path]
    | .error _ => []

theorem Check.run_evaluate (check : Check) (w : World σ) :
    (w.run (check.evaluate host).run).2 = w.afterAll host (check.calls w.context.env) := by
  cases check with
  | command line user cwd =>
    rw [evaluate, World.run_decide]
    rfl
  | fileExists path => rfl
  | ownedBy path owner =>
    rw [evaluate, World.run_decide]
    rfl
  | fileContains path pattern =>
    simp only [evaluate, calls]
    cases Pattern.parse pattern with
    | error m => exact w.afterAll_nil.symm
    | ok p =>
      rw [World.run_decide]
      rfl

theorem World.decide_error {w : World σ} {x : Action σ α} {f : α → β} {e : Error}
    (failed : (w.run (do return f (← x) : Action σ β).run).1 = .error e) : (w.run x.run).1 = .error e := by
  rw [World.try_bind] at failed
  rcases ran : w.run x.run with ⟨d | a, next⟩
  · rw [ran] at failed
    cases failed
    rfl
  · rw [ran] at failed
    cases failed

theorem Check.ask_error {w : World σ} {x : StateM (World σ) (Except Fault α)} {context : String} {e : Error}
    (failed : (w.run (ask x context).run).1 = .error e) : e.category = .guardEvaluation := by
  rw [World.try_ask] at failed
  cases reply : (w.run x).1 with
  | error fault =>
    rw [reply] at failed
    cases failed
    rfl
  | ok a =>
    rw [reply] at failed
    cases failed

theorem Check.evaluate_error {check : Check} {w : World σ} {e : Error}
    (failed : (w.run (check.evaluate host).run).1 = .error e) : e.category = .guardEvaluation := by
  cases check with
  | command line user cwd => exact ask_error (World.decide_error failed)
  | fileExists path => cases failed
  | ownedBy path owner => exact ask_error (World.decide_error failed)
  | fileContains path pattern =>
    simp only [evaluate] at failed
    cases parsed : Pattern.parse pattern with
    | error m =>
      rw [parsed] at failed
      cases failed
      rfl
    | ok p =>
      rw [parsed] at failed
      exact ask_error (World.decide_error failed)

/-- What a check comes to when it follows those of other guards. -/
def Check.resultAfter (host : Host σ) (w : World σ) (before : List Guard) (check : Check) : Except Error Bool :=
  ((w.afterAll host (before.flatMap (·.check.calls w.context.env))).run (check.evaluate host).run).1

namespace Guard

/-- The checks of the guards are made from `w`, each once and in order, and lead to `last`. -/
structure Asked (host : Host σ) (guards : List Guard) (w : World σ) (results : List (Guard × Except Error Bool))
    (last : World σ) : Prop where
  each : ∀ i, results[i]? = guards[i]?.map fun (g : Guard) => (g, g.check.resultAfter host w (guards.take i))
  world : last = w.afterAll host (guards.flatMap (·.check.calls w.context.env))

theorem evaluateEach_asked (guards : List Guard) (w : World σ) :
    Asked host guards w (w.run (evaluateEach host guards)).1 (w.run (evaluateEach host guards)).2 := by
  induction guards generalizing w with
  | nil => exact ⟨fun i => rfl, w.afterAll_nil.symm⟩
  | cons g rest ih =>
    have first : (w.run (g.check.evaluate host).run).2 = _ := g.check.run_evaluate w
    obtain ⟨each, world⟩ := ih (w.run (g.check.evaluate host).run).2
    constructor
    · intro i
      cases i with
      | zero =>
        change some (g, (w.run (g.check.evaluate host).run).1) = some (g, g.check.resultAfter host w [])
        rw [Check.resultAfter, List.flatMap_nil, World.afterAll_nil]
      | succ i =>
        refine (each i).trans ?_
        simp only [List.getElem?_cons_succ, List.take_succ_cons, Check.resultAfter, first, List.flatMap_cons,
          World.afterAll_append, World.afterAll_context]
    · refine Eq.trans world ?_
      simp only [first, List.flatMap_cons, World.afterAll_append, World.afterAll_context]

theorem Asked.error {guards : List Guard} {w last : World σ} {results : List (Guard × Except Error Bool)}
    (asked : Asked host guards w results last) {g : Guard} {e : Error} (member : (g, .error e) ∈ results) :
    e.category = .guardEvaluation := by
  obtain ⟨i, here⟩ := List.mem_iff_getElem?.mp member
  rw [asked.each i] at here
  obtain ⟨h, -, same⟩ := Option.map_eq_some_iff.mp here
  exact Check.evaluate_error (Prod.mk.inj same).2

/-- The check has an answer that the guard does not permit. -/
def Forbids (g : Guard) (result : Except Error Bool) : Prop := ∃ answer, result = .ok answer ∧ g.permits answer = false

theorem blocks?_eq_some_iff {g : Guard} {result : Except Error Bool} {reason : String} :
    g.blocks? result = some reason ↔ g.Forbids result ∧ reason = g.blockReason := by
  unfold Forbids
  cases result with
  | error e => simp [blocks?]
  | ok answer => cases permitted : g.permits answer <;> simp [blocks?, permitted, eq_comm (a := reason)]

theorem blocks?_eq_none_iff {g : Guard} {result : Except Error Bool} : g.blocks? result = none ↔ ¬ g.Forbids result := by
  unfold Forbids
  cases result with
  | error e => simp [blocks?]
  | ok answer => cases permitted : g.permits answer <;> simp [blocks?, permitted]

theorem failure?_eq_some_iff {result : Except Error Bool} {e : Error} : failure? result = some e ↔ result = .error e := by
  cases result <;> simp [failure?]

theorem failure?_eq_none_iff {result : Except Error Bool} : failure? result = none ↔ ∀ e, result ≠ .error e := by
  cases result <;> simp [failure?]

/-- The verdict, by what the checks came to. -/
structure Decides (policy : GuardErrorPolicy) (results : List (Guard × Except Error Bool))
    (verdict : Except Error Verdict) : Prop where
  /-- The first answer that is not permitted decides, whatever errors there are. -/
  forbidden : (∃ x ∈ results, x.1.Forbids x.2) → ∃ before g result after, results = before ++ (g, result) :: after ∧
    g.Forbids result ∧ (∀ x ∈ before, ¬ x.1.Forbids x.2) ∧ verdict = .ok (.block g.blockReason)
  /-- Without one the policy settles the first error. -/
  failed : (∀ x ∈ results, ¬ x.1.Forbids x.2) → (∃ x ∈ results, ∃ e, x.2 = .error e) →
    ∃ before g e after, results = before ++ (g, .error e) :: after ∧ (∀ x ∈ before, ∀ d, x.2 ≠ .error d) ∧
      verdict = match policy with
        | .skip => .ok (.block ("guard error treated as false: " ++ e.message))
        | .fail => .error e
  permitted : (∀ x ∈ results, ¬ x.1.Forbids x.2 ∧ ∀ e, x.2 ≠ .error e) → verdict = .ok .permit

theorem first_failure {results : List (Guard × Except Error Bool)} {e : Error}
    (found : (results.findSome? fun x => failure? x.2) = some e) : ∃ before g after,
      results = before ++ (g, .error e) :: after ∧ ∀ x ∈ before, ∀ d, x.2 ≠ .error d := by
  obtain ⟨before, ⟨g, result⟩, after, whole, fails, earlier⟩ := List.findSome?_eq_some_iff.mp found
  obtain rfl := failure?_eq_some_iff.mp fails
  exact ⟨before, g, after, whole, fun x member => failure?_eq_none_iff.mp (earlier x member)⟩

theorem compose_decides (policy : GuardErrorPolicy) (results : List (Guard × Except Error Bool)) :
    Decides policy results (compose policy results) := by
  unfold compose
  split
  · rename_i reason found
    obtain ⟨before, ⟨g, result⟩, after, whole, blocks, earlier⟩ := List.findSome?_eq_some_iff.mp found
    obtain ⟨forbids, rfl⟩ := blocks?_eq_some_iff.mp blocks
    have member : (g, result) ∈ results := by simp [whole]
    constructor
    · intro _
      exact ⟨before, g, result, after, whole, forbids, fun x member => blocks?_eq_none_iff.mp (earlier x member), rfl⟩
    · exact fun fine _ => absurd forbids (fine _ member)
    · exact fun fine => absurd forbids (fine _ member).1
  · rename_i unblocked
    have fine : ∀ x ∈ results, ¬ x.1.Forbids x.2 := fun x member =>
      blocks?_eq_none_iff.mp (List.findSome?_eq_none_iff.mp unblocked x member)
    split
    · rename_i sound
      have decided : ∀ x ∈ results, ∀ e, x.2 ≠ .error e := fun x member =>
        failure?_eq_none_iff.mp (List.findSome?_eq_none_iff.mp sound x member)
      constructor
      · exact fun ⟨x, member, forbids⟩ => absurd forbids (fine x member)
      · exact fun _ ⟨x, member, e, bad⟩ => absurd bad (decided x member e)
      · exact fun _ => rfl
    all_goals
      rename_i e found
      obtain ⟨before, g, after, whole, earlier⟩ := first_failure found
      constructor
      · exact fun ⟨x, member, forbids⟩ => absurd forbids (fine x member)
      · exact fun _ _ => ⟨before, g, e, after, whole, earlier, rfl⟩
      · exact fun permitted => absurd rfl ((permitted (g, .error e) (by simp [whole])).2 e)

theorem compose_eq_permit_iff {policy : GuardErrorPolicy} {results : List (Guard × Except Error Bool)} :
    compose policy results = .ok .permit ↔ ∀ x ∈ results, ¬ x.1.Forbids x.2 ∧ ∀ e, x.2 ≠ .error e := by
  refine ⟨fun permitted x member => ?_, (compose_decides policy results).permitted⟩
  obtain ⟨answer, decided, favour⟩ := permits_of_compose permitted (g := x.1) member
  refine ⟨?_, fun e failed => ?_⟩
  · rintro ⟨other, same, against⟩
    cases decided.symm.trans same
    rw [favour] at against
    cases against
  · rw [decided] at failed
    cases failed

theorem compose_error_iff {policy : GuardErrorPolicy} {results : List (Guard × Except Error Bool)} :
    (∃ e, compose policy results = .error e) ↔
      policy = .fail ∧ (∀ x ∈ results, ¬ x.1.Forbids x.2) ∧ ∃ x ∈ results, ∃ e, x.2 = .error e := by
  have decides := compose_decides policy results
  constructor
  · rintro ⟨e, verdict⟩
    have fine : ∀ x ∈ results, ¬ x.1.Forbids x.2 := by
      intro x member forbids
      obtain ⟨_, _, _, _, -, -, -, blocked⟩ := decides.forbidden ⟨x, member, forbids⟩
      cases verdict.symm.trans blocked
    have bad : ∃ x ∈ results, ∃ e, x.2 = .error e := by
      by_cases bad : ∃ x ∈ results, ∃ e, x.2 = .error e
      · exact bad
      · cases verdict.symm.trans
          (decides.permitted fun x member => ⟨fine x member, fun d failed => bad ⟨x, member, d, failed⟩⟩)
    obtain ⟨_, _, _, _, -, -, settled⟩ := decides.failed fine bad
    refine ⟨?_, fine, bad⟩
    cases policy with
    | skip => cases verdict.symm.trans settled
    | fail => rfl
  · rintro ⟨rfl, fine, bad⟩
    obtain ⟨_, _, e, _, -, -, settled⟩ := decides.failed fine bad
    exact ⟨e, settled⟩

end Guard

structure Verdict.SameKind (a b : Except Error Verdict) : Prop where
  permit : a = .ok .permit ↔ b = .ok .permit
  block : (∃ reason, a = .ok (.block reason)) ↔ ∃ reason, b = .ok (.block reason)
  error : (∃ e, a = .error e) ↔ ∃ e, b = .error e

theorem Verdict.block_iff {a : Except Error Verdict} :
    (∃ reason, a = .ok (.block reason)) ↔ a ≠ .ok .permit ∧ ¬ ∃ e, a = .error e := by
  rcases a with e | _ | reason <;> simp

theorem Guard.compose_perm (policy : GuardErrorPolicy) {results others : List (Guard × Except Error Bool)}
    (perm : results.Perm others) : Verdict.SameKind (compose policy results) (compose policy others) := by
  have permit : compose policy results = .ok .permit ↔ compose policy others = .ok .permit := by
    simp only [compose_eq_permit_iff, perm.mem_iff]
  have error : (∃ e, compose policy results = .error e) ↔ ∃ e, compose policy others = .error e := by
    simp only [compose_error_iff, perm.mem_iff]
  refine ⟨permit, ?_, error⟩
  rw [Verdict.block_iff, Verdict.block_iff, ne_eq, permit, error]

namespace Converge

/-- What becomes of a resource by the verdict of its guards, and of the world that it is taken in. -/
structure HeedsVerdict (r : Resource) (verdict : Except Error Verdict) (w : World σ) (x : ResourceReport)
    (last : World σ) : Prop where
  blocked : ∀ reason, verdict = .ok (.block reason) → x.outcome = .skipped reason
  failed : ∀ e, verdict = .error e → x.outcome = .failed e.message .guardEvaluation
  silent : verdict ≠ .ok .permit → last.calls = w.calls ++ r.allGuards.flatMap (·.check.calls w.context.env)

variable {opts : RunOptions}

theorem run_verdictOf (r : Resource) (w : World σ) : (w.run (verdictOf host opts r)).2 =
    w.afterAll host (r.allGuards.flatMap (·.check.calls w.context.env)) :=
  (Guard.evaluateEach_asked r.allGuards w).world

theorem verdictOf_error {r : Resource} {w : World σ} {e : Error} (failed : (w.run (verdictOf host opts r)).1 = .error e) :
    e.category = .guardEvaluation := by
  have asked : Guard.Asked host r.allGuards w _ _ := Guard.evaluateEach_asked r.allGuards w
  have composed : Guard.compose (r.onGuardError.getD opts.onGuardError) (w.run (Guard.evaluateEach host r.allGuards)).1 =
      .error e := failed
  have decides := Guard.compose_decides (r.onGuardError.getD opts.onGuardError)
    (w.run (Guard.evaluateEach host r.allGuards)).1
  obtain ⟨policy, fine, bad⟩ := Guard.compose_error_iff.mp ⟨e, composed⟩
  obtain ⟨before, g, d, after, whole, -, settled⟩ := decides.failed fine bad
  rw [composed, policy] at settled
  cases settled
  exact asked.error (g := g) (by rw [whole]; simp)

theorem oneResource_heeds (r : Resource) (w : World σ) :
    HeedsVerdict r ((opened r w).run (verdictOf host opts r)).1 w (w.run (oneResource host opts r)).1
      (w.run (oneResource host opts r)).2 := by
  have guarded : ((opened r w).run (verdictOf host opts r)).2.calls =
      w.calls ++ r.allGuards.flatMap (·.check.calls w.context.env) :=
    congrArg World.calls (run_verdictOf r (opened r w))
  rw [run_oneResource, run_resourceOutcome]
  constructor
  · intro reason blocked
    rw [blocked]
    rfl
  · intro e failed
    rw [failed, ← verdictOf_error failed]
    rfl
  · intro denied
    rcases verdict : ((opened r w).run (verdictOf host opts r)).1 with e | _ | reason
    · exact guarded
    · exact absurd verdict denied
    · exact guarded

theorem inTurn_succ {rs : List Resource} {i : Nat} {r : Resource} (here : rs[i]? = some r) (w : World σ) :
    inTurn host opts w (rs.take (i + 1)) = ((inTurn host opts w (rs.take i)).run (oneResource host opts r)).2 := by
  rw [List.take_add_one, here]
  simp [inTurn]

theorem reports_getElem? {l : RunList} {w last : World σ} {report : RunReport}
    (ran : w.run (converge host l opts).run = (.ok report, last)) {i : Nat} {r : Resource} {x : ResourceReport}
    (declared : l.resources[i]? = some r) (reported : report.resources[i]? = some x) :
    x = ((inTurn host opts (entered opts l w) (l.resources.take i)).run (oneResource host opts r)).1 := by
  obtain ⟨-, rfl, rfl⟩ := converge_eq_ok ran
  obtain ⟨bound, -⟩ := List.getElem?_eq_some_iff.mp reported
  have walked : (walked host opts l w).1[i]? = _ := (walked_walk l w).each i r bound declared
  exact Option.some.inj (reported.symm.trans walked)

end Converge

open Converge in
/-- Checks are made each once and in order, and the verdict follows from what they came to, whatever their order.
A resource goes by the verdict under its own policy, or else that of the run. -/
theorem guards_decide (host : Host σ) :
    (∀ policy guards (w : World σ), ∃ results verdict last, Guard.Asked host guards w results last ∧
      w.run (Guard.evaluateAll host policy guards).run = (verdict, last) ∧ Guard.Decides policy results verdict) ∧
    (∀ policy guards others (w v : World σ),
      (w.run (Guard.evaluateEach host guards)).1.Perm (v.run (Guard.evaluateEach host others)).1 →
      Verdict.SameKind (w.run (Guard.evaluateAll host policy guards).run).1
        (v.run (Guard.evaluateAll host policy others).run).1) ∧
    ∀ opts l (w : World σ) report last, w.run (converge host l opts).run = (.ok report, last) →
      ∀ i r x, l.resources[i]? = some r → report.resources[i]? = some x →
        let before := inTurn host opts (entered opts l w) (l.resources.take i)
        HeedsVerdict r ((opened r before).run
            (Guard.evaluateAll host (r.onGuardError.getD opts.onGuardError) r.allGuards).run).1
          before x (inTurn host opts (entered opts l w) (l.resources.take (i + 1))) := by
  refine ⟨?_, ?_, ?_⟩
  · intro policy guards w
    exact ⟨_, _, _, Guard.evaluateEach_asked guards w, rfl, Guard.compose_decides policy _⟩
  · intro policy guards others w v perm
    exact Guard.compose_perm policy perm
  · intro opts l w report last ran i r x declared reported
    rw [reports_getElem? ran declared reported, inTurn_succ declared]
    exact oneResource_heeds r _

def unclearGuards : List Guard := [⟨.onlyIf, .fileContains "/f" "("⟩, ⟨.onlyIf, .fileExists "/g"⟩]

def unclearList : RunList :=
  ⟨[.ofResource { name := "conf", spec := .renderedFile ⟨"/f", "f.j2", []⟩, guards := unclearGuards } []]⟩

def unclearWorld : World Machine where
  machine := Machine.empty
  context := ⟨false, false, .empty, .object [], .warn, []⟩
  calls := []
  events := []

open Converge in
theorem guards_decide_unclear :
    Verdict.SameKind (unclearWorld.run (Guard.evaluateAll Machine.host .fail unclearGuards).run).1
        (unclearWorld.run (Guard.evaluateAll Machine.host .fail unclearGuards.reverse).run).1 ∧
      ∃ report last x, unclearWorld.run (converge Machine.host unclearList { onGuardError := .fail }).run =
          (.ok report, last) ∧
        report.resources[0]? = some x ∧ x.outcome = .skipped "only_if /g exists was false" := by
  obtain ⟨-, reordered, heeds⟩ := guards_decide Machine.host
  -- The first check fails either way, the second has an answer.
  have swapped : (unclearWorld.run (Guard.evaluateEach Machine.host unclearGuards)).1.Perm
      (unclearWorld.run (Guard.evaluateEach Machine.host unclearGuards.reverse)).1 := List.Perm.swap _ _ _
  have valid : unclearList.validate .perKind = .ok () := by rfl
  have ran : unclearWorld.run (converge Machine.host unclearList { onGuardError := .fail }).run = (.ok _, _) :=
    converge_of_valid valid unclearWorld
  have heeded := heeds _ _ _ _ _ ran 0 _ _ rfl rfl
  exact ⟨reordered _ _ _ _ _ swapped, _, _, _, ran, rfl, heeded.blocked _ rfl⟩

end Provision
