import Provision.Proofs.Faithfulness
import Provision.Proofs.RunOrder

namespace Provision

variable {σ : Type}

namespace BindingTable

variable {τ : Type} {t : BindingTable τ} {s s' : τ} {bindings : List Binding} {policy : ConflictPolicy}

/-- The bindings are set, to the values requested where conflicts are errors. -/
def Held (t : BindingTable τ) (s : τ) (bindings : List Binding) (policy : ConflictPolicy) : Prop :=
  ∀ b ∈ bindings, ∃ value, t.look s b.key = some value ∧ (policy = .fail → value = b.value)

theorem Held.kept (held : t.Held s bindings policy)
    (keeps : ∀ key value, t.look s key = some value → t.look s' key = some value) : t.Held s' bindings policy := by
  intro b member
  obtain ⟨value, found, agrees⟩ := held b member
  exact ⟨value, keeps _ _ found, agrees⟩

theorem held_pass (lawful : t.Lawful) (settled : policy = .fail → (t.pass s bindings).2.conflicts = []) :
    t.Held (t.pass s bindings).1 bindings policy := by
  intro b member
  obtain ⟨value, found, agrees⟩ := pass_holds lawful s bindings b member
  exact ⟨value, found, fun fail => agrees (settled fail)⟩

theorem Held.pass (held : t.Held s bindings policy) :
    (t.pass s bindings).2.isChanged = false ∧ (policy = .fail → (t.pass s bindings).2.conflicts = []) := by
  obtain ⟨unchanged, agreed⟩ := pass_of_held fun b member =>
    let ⟨value, found, _⟩ := held b member
    ⟨value, found⟩
  refine ⟨unchanged, fun fail => agreed ?_⟩
  intro b member
  obtain ⟨value, found, agrees⟩ := held b member
  rw [found, agrees fail]

end BindingTable

def Package.Settled (host : Host σ) (p : Package) (m : σ) : Prop :=
  ∃ installed, (host.answer (.installedVersion p.package) m).1 = .ok installed ∧ p.satisfiedBy installed = true

def LineEdit.policy (e : LineEdit) (w : World σ) : ConflictPolicy := e.onConflict.getD w.context.onConflict

theorem LineEdit.policy_steady {w next : World σ} (e : LineEdit) (steady : w.context.Steady next.context) :
    e.policy next = e.policy w := by
  simp only [policy, steady.onConflict]

def LineEdit.Settled (host : Host σ) (e : LineEdit) (w : World σ) : Prop :=
  match e.replace, e.path with
  | some _, none => False
  | some x, some path => ∃ p content, parsePattern x.pattern = .ok p ∧
      (host.answer (.read path) w.machine).1 = .ok content ∧ content.bind (p.replaceLines? x.replacement) = none
  | none, some path => ∃ content, (host.answer (.read path) w.machine).1 = .ok content ∧
      (Binding.lineTable e.lineSyntax).Held (Text.lines (content.getD "")) e.bindings (e.policy w)
  | none, none => Environment.table.Held w.context.env e.bindings (e.policy w)

def Rendering.Settled (host : Host σ) (start w : World σ) (path template : String) (context : Json) : Prop :=
  ∃ content, Told host start w (.render template context) (.ok content) ∧
    (host.answer (.read path) w.machine).1 = .ok (some content)

def WorkingCopy.Settled (host : Host σ) (start w : World σ) (c : WorkingCopy) : Prop :=
  ∃ revision, (host.answer (.revision c.destination) w.machine).1 = .ok (some revision) ∧
    (c.isAt (some revision) = true ∨ Told host start w (.checkout c.request) (.ok revision))

def ScheduledJob.Settled (host : Host σ) (m : σ) (j : ScheduledJob) (name : String) : Prop :=
  (host.answer (.jobs j.user) m).1.map (·.find? (·.name == name)) = .ok (some (j.entry name))

def Site.linkStateOf (s : Site) (name : String) : Option String → LinkState
  | none => .missing
  | some target => if Path.same target (s.configPath name) then .correct else .wrongTarget target

def Site.Settled (host : Host σ) (start w : World σ) (s : Site) (name : String) : Prop :=
  Rendering.Settled host start w (s.configPath name) s.template (s.context name w.context.node) ∧
    ∃ found, (host.answer (.readLink (s.linkPath name)) w.machine).1 = .ok found ∧
      (s.linkDrift name (s.linkStateOf name found)).isEmpty = true

/-- The owner is the one asked for, or cannot be read and that keeps the action from running. -/
def Ownership.Settled (host : Host σ) (m : σ) (o : Ownership) (policy : GuardErrorPolicy) : Prop :=
  (host.answer (.owner o.path) m).1 = .ok (some o.owner) ∨
    policy = .skip ∧ ∃ fault, (host.answer (.owner o.path) m).1 = .error fault

def Spec.Settled (host : Host σ) (start w : World σ) (name : String) (policy : GuardErrorPolicy) : Spec → Prop
  | .package p => p.Settled host w.machine
  | .command _ => False
  | .lineEdit e => e.Settled host w
  | .renderedFile f => Rendering.Settled host start w f.path f.source (f.context w.context.node)
  | .workingCopy c => c.Settled host start w
  | .scheduledJob j => j.Settled host w.machine name
  | .site s => s.Settled host start w name
  | .ownership o => o.Settled host w.machine policy

def Resource.Settled (host : Host σ) (opts : RunOptions) (start w : World σ) (r : Resource) : Prop :=
  r.spec.Settled host start w r.name (r.onGuardError.getD opts.onGuardError)

namespace Package

section

variable {host : Host σ} {p : Package} {w last : World σ} {found : Option String} {change : Change}

/-- The world that an installation leaves: the manager was asked for the version before it. -/
def afterInstall (host : Host σ) (p : Package) (w : World σ) : World σ :=
  (w.after host (.installedVersion p.package)).after host (.install p.package p.version)

theorem run_look (read : (host.answer (.installedVersion p.package) w.machine).1 = .ok found) :
    w.run (Action.ofReply (perform host (.installedVersion p.package))).run =
      (.ok found, w.after host (.installedVersion p.package)) :=
  World.try_ofReply_eq_ok.mpr (Prod.ext read rfl)

theorem apply_eq_ok : w.run (p.apply host).run = (.ok change, last) ↔
    ∃ found, (host.answer (.installedVersion p.package) w.machine).1 = .ok found ∧
      (p.satisfiedBy found = true ∧ change = .unchanged ∧ last = w.after host (.installedVersion p.package) ∨
        p.satisfiedBy found = false ∧ ∃ installed,
          (host.answer (.install p.package p.version) (w.after host (.installedVersion p.package)).machine).1 = .ok () ∧
          (host.answer (.installedVersion p.package) (p.afterInstall host w).machine).1 = .ok installed ∧
          change = .converged ("installed " ++ p.package ++ " " ++ installed.getD "unknown version") ∧
          last = (p.afterInstall host w).after host (.installedVersion p.package)) := by
  constructor
  · intro ran
    obtain ⟨found, next, looked, rest⟩ := World.try_bind_eq_ok.mp ran
    obtain ⟨before, (rfl : World.after host _ _ = _)⟩ := Prod.mk.inj (World.try_ofReply_eq_ok.mp looked)
    refine ⟨found, before, ?_⟩
    by_cases satisfied : p.satisfiedBy found = true
    · rw [if_pos satisfied] at rest
      cases rest
      exact .inl ⟨satisfied, rfl, rfl⟩
    · rw [if_neg satisfied] at rest
      obtain ⟨⟨⟩, next, done, rest⟩ := World.try_bind_eq_ok.mp rest
      obtain ⟨ok, (rfl : World.after host _ _ = _)⟩ := Prod.mk.inj (World.try_ofReply_eq_ok.mp done)
      obtain ⟨installed, next, looked, rest⟩ := World.try_bind_eq_ok.mp rest
      obtain ⟨after, (rfl : World.after host _ _ = _)⟩ := Prod.mk.inj (World.try_ofReply_eq_ok.mp looked)
      cases rest
      exact .inr ⟨Bool.eq_false_iff.mpr satisfied, installed, ok, after, rfl, rfl⟩
  · rintro ⟨found, before, ⟨satisfied, rfl, rfl⟩ | ⟨unsatisfied, installed, ok, after, rfl, rfl⟩⟩
    · refine World.try_bind_eq_ok.mpr ⟨found, _, run_look before, ?_⟩
      rw [if_pos satisfied]
      rfl
    · have done : (w.after host (.installedVersion p.package)).run
          (Action.ofReply (perform host (.install p.package p.version))).run = (.ok (), p.afterInstall host w) :=
        World.try_ofReply_eq_ok.mpr (Prod.ext ok rfl)
      refine World.try_bind_eq_ok.mpr ⟨found, _, run_look before, ?_⟩
      rw [if_neg (Bool.eq_false_iff.mp unsatisfied)]
      exact World.try_bind_eq_ok.mpr ⟨_, _, done, World.try_bind_eq_ok.mpr ⟨_, _, run_look after, rfl⟩⟩

end

end Package

section

variable {host : Host σ} {start w next : World σ}

theorem Rendering.Settled.kept {path template : String} {context : Json}
    (settled : Settled host start w path template context) (grows : w.calls <+: next.calls)
    (keeps : host.Keeps w.machine next.machine (.file path)) : Settled host start next path template context := by
  obtain ⟨content, told, read⟩ := settled
  exact ⟨content, told.grows grows, Eq.trans keeps read⟩

theorem Resource.Settled.kept {opts : RunOptions} {r : Resource} (settled : r.Settled host opts start w)
    (keeps : ∀ t ∈ r.targets, host.Keeps w.machine next.machine t) (grows : w.calls <+: next.calls)
    (steady : w.context.Steady next.context) : r.Settled host opts start next := by
  obtain ⟨name, spec, guards, bestEffort, onGuardError, notifies⟩ := r
  unfold Resource.Settled at settled ⊢
  unfold Resource.targets at keeps
  -- What is read of the targets stays, and what was told or is set in the environment only grows.
  cases spec with
  | command k => exact settled
  | package p =>
    obtain ⟨installed, read, satisfied⟩ := settled
    exact ⟨installed, Eq.trans (keeps _ List.mem_cons_self) read, satisfied⟩
  | lineEdit e =>
    obtain ⟨path, syn, bindings, replace, onConflict⟩ := e
    have policy := LineEdit.policy_steady ⟨path, syn, bindings, replace, onConflict⟩ steady
    cases replace with
    | some x =>
      cases path with
      | none => exact settled
      | some path =>
        obtain ⟨p, content, parsed, read, nothing⟩ := settled
        exact ⟨p, content, parsed, Eq.trans (keeps _ List.mem_cons_self) read, nothing⟩
    | none =>
      cases path with
      | none =>
        have held : Environment.table.Held w.context.env bindings _ := settled
        simp only [Spec.Settled, LineEdit.Settled, policy]
        exact held.kept steady.env
      | some path =>
        obtain ⟨content, read, held⟩ := settled
        simp only [Spec.Settled, LineEdit.Settled, policy]
        exact ⟨content, Eq.trans (keeps _ List.mem_cons_self) read, held⟩
  | renderedFile f =>
    have here : Rendering.Settled host start w f.path f.source (f.context w.context.node) := settled
    simp only [Spec.Settled, steady.node]
    exact here.kept grows (keeps _ List.mem_cons_self)
  | workingCopy c =>
    obtain ⟨revision, read, fits⟩ := settled
    refine ⟨revision, Eq.trans (keeps _ List.mem_cons_self) read, ?_⟩
    rcases fits with there | told
    · exact Or.inl there
    · exact Or.inr (told.grows grows)
  | scheduledJob j => exact Eq.trans (keeps _ List.mem_cons_self) settled
  | site s =>
    obtain ⟨rendered, found, read, fits⟩ := settled
    simp only [Spec.Settled, Site.Settled, steady.node]
    refine ⟨rendered.kept grows (keeps _ List.mem_cons_self), found, ?_, fits⟩
    exact Eq.trans (keeps _ (List.mem_cons_of_mem _ List.mem_cons_self)) read
  | ownership o =>
    have same : host.Keeps w.machine next.machine (.owner o.path o.recursive) := keeps _ List.mem_cons_self
    rcases settled with owned | ⟨skip, fault, read⟩
    · exact Or.inl (Eq.trans same owned)
    · exact Or.inr ⟨skip, fault, Eq.trans same read⟩

end

section

variable {host : Host σ}

theorem Guard.compose_decided (policy : GuardErrorPolicy) (g : Guard) (result : Bool) :
    compose policy [(g, .ok result)] = .ok (if g.permits result = true then .permit else .block g.blockReason) := by
  by_cases permits : g.permits result = true <;> simp [compose, blocks?, failure?, permits]

def Ownership.verdict (o : Ownership) (policy : GuardErrorPolicy) : Except Fault (Option String) → Except Error Verdict
  | .ok owner => .ok (if owner = some o.owner then .block o.guard.blockReason else .permit)
  | .error fault => Guard.compose policy
      [(o.guard, .error (.guardEvaluation ("could not read owner of " ++ o.path ++ ": " ++ fault.message)))]

theorem Ownership.run_guard (o : Ownership) (policy : GuardErrorPolicy) (w : World σ) :
    w.run (Guard.evaluateAll host policy [o.guard]).run =
      (o.verdict policy (host.answer (.owner o.path) w.machine).1, w.after host (.owner o.path)) := by
  have asked : w.run (perform host (.owner o.path)) =
      ((host.answer (.owner o.path) w.machine).1, w.after host (.owner o.path)) := rfl
  have evaluated : w.run (Guard.evaluateAll host policy [o.guard]).run =
      (Guard.compose policy [(o.guard, (w.run (o.guard.check.evaluate host).run).1)],
        (w.run (o.guard.check.evaluate host).run).2) := rfl
  have looked : w.run (o.guard.check.evaluate host).run = w.run
      (Check.ask (perform host (.owner o.path)) ("could not read owner of " ++ o.path) >>= fun owner =>
        pure (owner == some o.owner)).run := rfl
  rw [evaluated, looked, World.try_bind, World.try_ask, asked]
  rcases (host.answer (.owner o.path) w.machine).1 with fault | owner
  · rfl
  · change (Guard.compose policy [(o.guard, .ok (owner == some o.owner))], w.after host (.owner o.path)) = _
    rw [Guard.compose_decided]
    by_cases owned : owner = some o.owner <;> simp [verdict, Guard.permits, guard, owned]

/-- The guard of an ownership holds its action back just when there is nothing left to do for it. -/
theorem Ownership.verdict_block_iff (o : Ownership) (policy : GuardErrorPolicy) (m : σ) :
    (∃ reason, o.verdict policy (host.answer (.owner o.path) m).1 = .ok (.block reason)) ↔
      o.Settled host m policy := by
  unfold Ownership.Settled
  rcases (host.answer (.owner o.path) m).1 with fault | owner
  · cases policy with
    | skip => exact iff_of_true ⟨_, rfl⟩ (Or.inr ⟨rfl, fault, rfl⟩)
    | fail => exact iff_of_false (by rintro ⟨reason, blocked⟩; cases blocked) (by simp)
  · by_cases owned : owner = some o.owner
    · exact iff_of_true ⟨o.guard.blockReason, by simp [verdict, owned]⟩ (Or.inl (by rw [owned]))
    · exact iff_of_false (by simp [verdict, owned]) (by simp [owned])

end

end Provision
