import Provision.Proofs.Bindings
import Provision.Proofs.Observation
import Provision.Resource.Basic

namespace Provision

variable {σ α : Type} {host : Host σ} {P : Call → Prop} {base : World σ}

/-- The calls of `P` leave no trace, and every call that only looks is one of them. -/
structure Discreet (host : Host σ) (P : Call → Prop) (base : World σ) : Prop where
  looks : ∀ c : Call, c.mutates = false → c.isRun = false → P c
  quiet : ∀ c, P c → host.Quiet base.machine c

theorem Discreet.look (discreet : Discreet host P base) (c : Call) (mutates : c.mutates = false)
    (isRun : c.isRun = false) : Tells host P base (perform host c) (host.answer c base.machine).1 [] :=
  have allowed := discreet.looks c mutates isRun
  .call allowed (discreet.quiet c allowed)

theorem Discreet.command (discreet : Discreet host P base) {line : String} {user cwd : Option String}
    (allowed : P (.run line user cwd base.context.env.vars)) :
    Tells host P base (runCommand host line user cwd [])
      (host.answer (.run line user cwd base.context.env.vars) base.machine).1 [] := by
  intro w like
  have started : w.run (runCommand host line user cwd []) =
      w.run (perform host (.run line user cwd base.context.env.vars)) := by
    rw [← like.env]
    rfl
  rw [started]
  exact Tells.call allowed (discreet.quiet _ allowed) w like

theorem Check.ask_told {x : StateM (World σ) (Except Fault α)} {reply : Except Fault α} {warnings : List String}
    (told : Tells host P base x reply warnings) (context : String) :
    Tells host P base (Check.ask x context).run
      (reply.mapError fun f => .guardEvaluation (context ++ ": " ++ f.message)) warnings := by
  have mapped := told.bind (f := fun r => Pure.pure
    (r.mapError fun f => Error.guardEvaluation (context ++ ": " ++ f.message))) (Tells.pure _)
  rwa [List.append_nil] at mapped

theorem Check.decide_told {x : Action σ α} {reply : Except Error α} {f : α → Bool}
    (told : Tells host P base x.run reply []) :
    Tells host P base (do return f (← x) : Action σ Bool).run (reply.map f) [] := by
  cases reply with
  | error e => exact told.tryBindError
  | ok a => exact told.tryBind (Tells.tryPure _)

theorem Check.told (discreet : Discreet host P base) (check : Check)
    (allowed : ∀ line user cwd, check = .command line user cwd → P (.run line user cwd base.context.env.vars)) :
    ∃ result, Tells host P base (check.evaluate host).run result [] := by
  cases check with
  | command line user cwd =>
    exact ⟨_, decide_told (ask_told (discreet.command (allowed line user cwd rfl)) _)⟩
  | fileExists path => exact ⟨_, Tells.lift (discreet.look (.pathExists path) rfl rfl)⟩
  | ownedBy path owner => exact ⟨_, decide_told (ask_told (discreet.look (.owner path) rfl rfl) _)⟩
  | fileContains path pattern =>
    simp only [Check.evaluate]
    cases Pattern.parse pattern with
    | error m => exact ⟨_, Tells.tryThrow _⟩
    | ok p => exact ⟨_, decide_told (ask_told (discreet.look (.read path) rfl rfl) _)⟩

theorem Guard.each_told_cons {g : Guard} {rest : List Guard} {result : Except Error Bool}
    {more : List (Guard × Except Error Bool)}
    (first : Tells host P base (g.check.evaluate host).run result [])
    (later : Tells host P base (evaluateEach host rest) more []) :
    Tells host P base (evaluateEach host (g :: rest)) ((g, result) :: more) [] :=
  first.bind (later.bind (Tells.pure _))

theorem Guard.each_told (guards : List Guard)
    (told : ∀ g ∈ guards, ∃ result, Tells host P base (g.check.evaluate host).run result []) :
    ∃ results, Tells host P base (evaluateEach host guards) results [] := by
  induction guards with
  | nil => exact ⟨[], Tells.pure _⟩
  | cons g rest ih =>
    obtain ⟨result, first⟩ := told g List.mem_cons_self
    obtain ⟨more, later⟩ := ih fun g member => told g (List.mem_cons_of_mem _ member)
    exact ⟨_, each_told_cons first later⟩

theorem Guard.all_told {guards : List Guard} {results : List (Guard × Except Error Bool)} (policy : GuardErrorPolicy)
    (told : Tells host P base (evaluateEach host guards) results []) :
    Tells host P base (evaluateAll host policy guards).run (compose policy results) [] :=
  told.bind (Tells.pure _)

theorem Guard.permits_of_compose {policy : GuardErrorPolicy} {results : List (Guard × Except Error Bool)}
    (permitted : compose policy results = .ok .permit) {g : Guard} {result : Except Error Bool}
    (member : (g, result) ∈ results) : ∃ b, result = .ok b ∧ g.permits b = true := by
  unfold compose at permitted
  split at permitted
  · cases permitted
  · rename_i unblocked
    split at permitted
    · rename_i sound
      have notBlocked := List.findSome?_eq_none_iff.mp unblocked _ member
      have notFailed := List.findSome?_eq_none_iff.mp sound _ member
      cases result with
      | error e => cases notFailed
      | ok b =>
        refine ⟨b, rfl, ?_⟩
        by_cases favour : g.permits b = true
        · exact favour
        · simp [Guard.blocks?, favour] at notBlocked
    · cases permitted
    · cases permitted

theorem Resource.guards_told (discreet : Discreet host P base) (r : Resource) (policy : GuardErrorPolicy)
    (allowed : ∀ g ∈ r.guards, ∀ line user cwd, g.check = .command line user cwd →
      P (.run line user cwd base.context.env.vars)) :
    ∃ verdict, Tells host P base (Guard.evaluateAll host policy r.allGuards).run verdict [] ∧
      (verdict = .ok .permit → ∀ o, r.spec = .ownership o →
        ∃ owner, (host.answer (.owner o.path) base.machine).1 = .ok owner ∧ owner ≠ some o.owner) := by
  have declared : ∀ g ∈ r.guards, ∃ result, Tells host P base (g.check.evaluate host).run result [] :=
    fun g member => g.check.told discreet (allowed g member)
  obtain ⟨results, told⟩ := Guard.each_told r.guards declared
  -- Only an ownership has a guard of its own, in front of the declared ones.
  by_cases owning : ∃ o, r.spec = .ownership o
  · obtain ⟨o, spec⟩ := owning
    have all : r.allGuards = o.guard :: r.guards := by simp [Resource.allGuards, spec, Spec.implicitGuards]
    have looked := Check.decide_told (f := (· == some o.owner))
      (Check.ask_told (discreet.look (.owner o.path) rfl rfl) ("could not read owner of " ++ o.path))
    have eachTold := Guard.each_told_cons (g := o.guard) looked told
    rw [← all] at eachTold
    refine ⟨_, Guard.all_told policy eachTold, ?_⟩
    intro permitted o' same
    rw [spec] at same
    cases same
    obtain ⟨b, decided, favour⟩ := Guard.permits_of_compose permitted List.mem_cons_self
    cases read : (host.answer (.owner o.path) base.machine).1 with
    | error fault =>
      rw [read] at decided
      cases decided
    | ok owner =>
      refine ⟨owner, rfl, ?_⟩
      rintro rfl
      rw [read] at decided
      cases decided
      simp [Guard.permits, Ownership.guard] at favour
  · have all : r.allGuards = r.guards := by
      have none : r.spec.implicitGuards = [] := by
        cases spec : r.spec with
        | ownership o => exact absurd ⟨o, spec⟩ owning
        | _ => rfl
      simp [Resource.allGuards, none]
    rw [all]
    exact ⟨_, Guard.all_told policy told, fun _ o spec => absurd ⟨o, spec⟩ owning⟩

/-- Where the check finds nothing to do so does the action, and where it fails so does the action. -/
def Agree (host : Host σ) (P : Call → Prop) (base : World σ) (check : Action σ Drift) (action : Action σ Change) :
    Prop :=
  ∃ seen warnings, Tells host P base check.run seen warnings ∧
    (seen = .ok .inSync → Tells host P base action.run (.ok .unchanged) warnings) ∧
    ∀ e, seen = .error e → Tells host P base action.run (.error e) warnings

namespace Agree

theorem inSync : Agree host P base (pure .inSync) (pure .unchanged) := by
  refine ⟨_, _, Tells.tryPure _, fun _ => Tells.tryPure _, ?_⟩
  intro e failed
  cases failed

theorem drifted (change : String) (action : Action σ Change) :
    Agree host P base (pure (.drifted change)) action := by
  refine ⟨_, _, Tells.tryPure _, ?_, ?_⟩
  · intro synced
    cases synced
  · intro e failed
    cases failed

theorem drifted_after {x : Action σ α} {f : α → Action σ Drift} {a : α} {warnings : List String} {change : String}
    (told : Tells host P base x.run (.ok a) warnings) (found : f a = pure (.drifted change))
    (action : Action σ Change) : Agree host P base (x >>= f) action := by
  have finds : Tells host P base (f a).run (.ok (.drifted change)) [] := by
    rw [found]
    exact Tells.tryPure _
  refine ⟨_, _, told.tryBind finds, ?_, ?_⟩
  · intro synced
    cases synced
  · intro e failed
    cases failed

theorem bind {x : Action σ α} {f : α → Action σ Drift} {g : α → Action σ Change} {reply : Except Error α}
    {warnings : List String} (told : Tells host P base x.run reply warnings)
    (rest : ∀ a, reply = .ok a → Agree host P base (f a) (g a)) : Agree host P base (x >>= f) (x >>= g) := by
  cases reply with
  | error e =>
    refine ⟨_, _, told.tryBindError, ?_, ?_⟩
    · intro synced
      cases synced
    · intro e' failed
      cases failed
      exact told.tryBindError
  | ok a =>
    obtain ⟨seen, more, checked, synced, failed⟩ := rest a rfl
    exact ⟨seen, warnings ++ more, told.tryBind checked, fun h => told.tryBind (synced h),
      fun e h => told.tryBind (failed e h)⟩

end Agree

theorem Package.agree (discreet : Discreet host P base) (p : Package) :
    Agree host P base (p.check host) (p.apply host) := by
  refine Agree.bind (discreet.look (.installedVersion p.package) rfl rfl).ofReply fun installed _ => ?_
  by_cases satisfied : p.satisfiedBy installed = true
  · simp only [satisfied, ↓reduceIte]
    exact .inSync
  · simp only [satisfied]
    cases installed with
    | none => exact .drifted _ _
    | some current => exact .drifted _ _

theorem Command.agree (discreet : Discreet host P base) (k : Command) :
    Agree host P base (k.check host) (k.apply host) := by
  have looked : ∃ created, Tells host P base (k.alreadyCreated host).run (.ok created) [] := by
    unfold Command.alreadyCreated
    cases k.creates with
    | none => exact ⟨_, Tells.tryPure _⟩
    | some path => exact ⟨_, (discreet.look (.pathExists path) rfl rfl).lift⟩
  obtain ⟨created, told⟩ := looked
  refine Agree.bind told fun created _ => ?_
  cases created
  · exact .drifted _ _
  · exact .inSync

theorem ScheduledJob.agree (discreet : Discreet host P base) (j : ScheduledJob) (name : String) :
    Agree host P base (j.check host name) (j.apply host name) := by
  have looked : ∃ reply, Tells host P base (j.installed host name).run reply [] := by
    have listed := (discreet.look (.jobs j.user) rfl rfl).ofReply
    cases reply : (host.answer (.jobs j.user) base.machine).1.mapError Error.collaborator with
    | error e =>
      rw [reply] at listed
      exact ⟨_, listed.tryBindError⟩
    | ok jobs =>
      rw [reply] at listed
      exact ⟨_, listed.tryBind (Tells.tryPure _)⟩
  obtain ⟨reply, told⟩ := looked
  refine Agree.bind told fun found _ => ?_
  cases found with
  | none => exact .drifted _ _
  | some job =>
    by_cases same : job = j.entry name
    · simp only [same, ↓reduceIte]
      exact .inSync
    · simp only [same]
      exact .drifted _ _

theorem WorkingCopy.agree (discreet : Discreet host P base) (c : WorkingCopy) :
    Agree host P base (c.check host) (c.apply host) := by
  refine Agree.bind (discreet.look (.revision c.destination) rfl rfl).ofReply fun current _ => ?_
  by_cases there : c.isAt current = true
  · simp only [there, ↓reduceIte]
    exact .inSync
  · simp only [there]
    cases current with
    | none => exact .drifted _ _
    | some current => exact .drifted _ _

theorem Ownership.agree (discreet : Discreet host P base) (o : Ownership) {owner : Option String}
    (read : (host.answer (.owner o.path) base.machine).1 = .ok owner) (other : owner ≠ some o.owner) :
    Agree host P base (o.check host) (o.apply host) := by
  have looked := (discreet.look (.owner o.path) rfl rfl).ofReply
  rw [read] at looked
  cases owner with
  | none => exact Agree.drifted_after looked rfl _
  | some owner =>
    have differs : owner ≠ o.owner := fun same => other (congrArg some same)
    exact Agree.drifted_after looked (if_neg differs) _

def Rendering.sight (host : Host σ) (m : σ) (path template : String) (context : Json) : Except Error Rendering :=
  match (host.answer (.render template context) m).1, (host.answer (.read path) m).1 with
  | .error fault, _ => .error (.collaborator fault)
  | .ok _, .error fault => .error (.collaborator fault)
  | .ok content, .ok existing => .ok ⟨path, content, existing⟩

theorem Rendering.make_told (discreet : Discreet host P base) (path template : String) (context : Json) :
    Tells host P base (make host path template context).run (sight host base.machine path template context) [] := by
  have rendered := (discreet.look (.render template context) rfl rfl).ofReply
  have looked := (discreet.look (.read path) rfl rfl).ofReply
  unfold sight
  cases content : (host.answer (.render template context) base.machine).1 with
  | error fault =>
    rw [content] at rendered
    exact rendered.tryBindError
  | ok content =>
    rw [content] at rendered
    refine rendered.tryBind ?_
    cases existing : (host.answer (.read path) base.machine).1 with
    | error fault =>
      rw [existing] at looked
      exact looked.tryBindError
    | ok existing =>
      rw [existing] at looked
      exact looked.tryBind (Tells.tryPure _)

theorem RenderedFile.agree (discreet : Discreet host P base) (f : RenderedFile) :
    Agree host P base (f.check host) (f.apply host) := by
  have rendered := Tells.tryContext (f := fun x => Rendering.make host f.path f.source (f.context x.node))
    (by intro x _ node _; simp only [node]) (Rendering.make_told discreet _ _ _)
  refine Agree.bind rendered fun r _ => ?_
  by_cases current : r.isCurrent = true
  · simp only [Rendering.drift, Rendering.write, current, ↓reduceIte]
    exact .inSync
  · simp only [Rendering.drift, current]
    cases r.existing with
    | none => exact .drifted _ _
    | some existing => exact .drifted _ _

/-- The configuration is out of date and the link cannot be read: the check fails there, the action
writes the configuration first. -/
def Site.Torn (host : Host σ) (w : World σ) (s : Site) (name : String) : Prop :=
  ∃ r fault, Rendering.sight host w.machine (s.configPath name) s.template (s.context name w.context.node) = .ok r ∧
    r.isCurrent = false ∧ (host.answer (.readLink (s.linkPath name)) w.machine).1 = .error fault

theorem Site.render_told (discreet : Discreet host P base) (s : Site) (name : String) :
    Tells host P base (s.render host name).run
      (Rendering.sight host base.machine (s.configPath name) s.template (s.context name base.context.node)) [] :=
  Tells.tryContext (f := fun x => Rendering.make host (s.configPath name) s.template (s.context name x.node))
    (by intro x _ node _; simp only [node]) (Rendering.make_told discreet _ _ _)

theorem Site.linkState_told (discreet : Discreet host P base) (s : Site) (name : String) :
    ∃ reply, Tells host P base (s.linkState host name).run reply [] ∧
      ∀ e, reply = .error e → ∃ fault, (host.answer (.readLink (s.linkPath name)) base.machine).1 = .error fault := by
  have looked := (discreet.look (.readLink (s.linkPath name)) rfl rfl).ofReply
  cases read : (host.answer (.readLink (s.linkPath name)) base.machine).1 with
  | error fault =>
    rw [read] at looked
    exact ⟨_, looked.tryBindError, fun _ _ => ⟨fault, rfl⟩⟩
  | ok found =>
    rw [read] at looked
    cases found with
    | none => exact ⟨.ok .missing, looked.tryBind (Tells.tryPure _), by intro e failed; cases failed⟩
    | some target => exact ⟨.ok _, looked.tryBind (Tells.tryPure _), by intro e failed; cases failed⟩

theorem Site.settleLink_settled {s : Site} {name : String} {state : LinkState}
    (settled : (s.linkDrift name state).isEmpty = true) : s.settleLink host name state = pure [] := by
  unfold Site.settleLink
  cases enabled : s.enabled <;> cases state <;> simp [Site.linkDrift, enabled] at settled ⊢

theorem Site.agree (discreet : Discreet host P base) {s : Site} {name : String} (whole : ¬ s.Torn host base name) :
    Agree host P base (s.check host name) (s.apply host name) := by
  obtain ⟨reply, linkTold, linkFails⟩ := s.linkState_told discreet name
  refine Agree.bind (s.render_told discreet name) fun r made => ?_
  by_cases current : r.isCurrent = true
  · simp only [Rendering.drift, Rendering.write, current, ↓reduceIte, pure_bind, List.nil_append]
    refine Agree.bind linkTold fun state _ => ?_
    by_cases settled : (s.linkDrift name state).isEmpty = true
    · simp only [settled, ↓reduceIte, settleLink_settled settled, pure_bind, List.isEmpty_nil]
      exact .inSync
    · simp only [settled]
      exact .drifted _ _
  · cases reply with
    | error e =>
      obtain ⟨fault, read⟩ := linkFails e rfl
      exact absurd ⟨r, fault, made, Bool.eq_false_iff.mpr current, read⟩ whole
    | ok state =>
      obtain ⟨change, drift⟩ : ∃ change, r.drift = .drifted change := by
        simp only [Rendering.drift, current]
        cases r.existing with
        | none => exact ⟨_, rfl⟩
        | some existing => exact ⟨_, rfl⟩
      simp only [drift]
      exact Agree.drifted_after linkTold rfl _

def LineEdit.sight (host : Host σ) (w : World σ) (e : LineEdit) : Except Error Insertion :=
  match e.path with
  | some path => ((host.answer (.read path) w.machine).1.mapError .collaborator).map fun content =>
      (Binding.insertLines (content.getD "") e.bindings e.lineSyntax).2
  | none => .ok (w.context.env.insertAll e.bindings).2

theorem LineEdit.readFile_told (discreet : Discreet host P base) (path : String) :
    Tells host P base (readFile host path).run
      (((host.answer (.read path) base.machine).1.mapError .collaborator).map (·.getD "")) [] := by
  have looked := (discreet.look (.read path) rfl rfl).ofReply
  cases read : (host.answer (.read path) base.machine).1 with
  | error fault =>
    rw [read] at looked
    exact looked.tryBindError
  | ok content =>
    rw [read] at looked
    exact looked.tryBind (Tells.tryPure _)

theorem LineEdit.preview_told (discreet : Discreet host P base) (e : LineEdit) :
    Tells host P base (e.preview host).run (e.sight host base) [] := by
  unfold LineEdit.preview LineEdit.sight
  cases e.path with
  | none =>
    exact Tells.tryContext (by intro x env _ _; simp only [env]) (Tells.tryPure _)
  | some path =>
    have looked := readFile_told discreet path
    dsimp only
    cases read : (host.answer (.read path) base.machine).1 with
    | error fault =>
      rw [read] at looked
      exact looked.tryBindError
    | ok content =>
      rw [read] at looked
      exact looked.tryBind (Tells.tryPure _)

def LineEdit.settleBy (e : LineEdit) (r : Insertion) : ConflictPolicy → Action σ Unit
  | .warn => Action.modifyContext fun x =>
      { x with warnings := x.warnings ++ r.conflicts.map (·.warning e.targetName) }
  | .fail => match r.conflicts with
    | c :: _ => throw (c.toError e.targetName)
    | [] => return

theorem LineEdit.settle_eq (e : LineEdit) (r : Insertion) :
    e.settle (σ := σ) r = (do e.settleBy r (e.onConflict.getD (← Action.getContext).onConflict)) := by
  unfold LineEdit.settle
  refine congrArg (Action.getContext >>= ·) (funext fun context => ?_)
  cases e.onConflict.getD context.onConflict with
  | warn => rfl
  | fail => cases conflicts : r.conflicts <;> simp [LineEdit.settleBy, conflicts]

theorem LineEdit.settleBy_told (e : LineEdit) (r : Insertion) (policy : ConflictPolicy) :
    ∃ reply warnings, Tells host P base (e.settleBy (σ := σ) r policy).run reply warnings := by
  cases policy with
  | warn => exact ⟨_, _, Tells.warn _⟩
  | fail =>
    unfold LineEdit.settleBy
    cases r.conflicts with
    | nil => exact ⟨_, _, Tells.tryPure _⟩
    | cons c rest => exact ⟨_, _, Tells.tryThrow _⟩

theorem LineEdit.settle_told (e : LineEdit) (r : Insertion) :
    ∃ reply warnings, Tells host P base (e.settle (σ := σ) r).run reply warnings := by
  obtain ⟨reply, warnings, settled⟩ := settleBy_told e r (e.onConflict.getD base.context.onConflict)
  rw [settle_eq]
  exact ⟨reply, warnings, Tells.tryContext (fun x _ _ onConflict => by rw [onConflict]) settled⟩

theorem LineEdit.insert_told (discreet : Discreet host P base) {e : LineEdit} {r : Insertion}
    (seen : e.sight host base = .ok r) (unchanged : r.isChanged = false) :
    Tells host P base (e.insert host).run (.ok r) [] := by
  unfold LineEdit.sight at seen
  unfold LineEdit.insert
  cases here : e.path with
  | none =>
    rw [here] at seen
    cases seen
    intro w like
    have same : w.context.env.insertAll e.bindings = base.context.env.insertAll e.bindings := by rw [like.env]
    have kept := Environment.insertAll_unchanged unchanged
    refine ⟨congrArg (Except.ok ∘ Prod.snd) same, like.machine, ?_, [], (List.append_nil _).symm, by simp⟩
    change { w.context with env := (w.context.env.insertAll e.bindings).1 } = _
    rw [same, kept, ← like.env, List.append_nil]
  | some path =>
    rw [here] at seen
    dsimp only at seen
    have looked := readFile_told discreet path
    cases read : (host.answer (.read path) base.machine).1 with
    | error fault =>
      rw [read] at seen
      cases seen
    | ok content =>
      rw [read] at seen looked
      cases seen
      refine looked.tryBind ?_
      simp only [unchanged]
      exact Tells.tryPure _

theorem LineEdit.agree_replace (discreet : Discreet host P base) {e : LineEdit} {path : String}
    (here : e.path = some path) (r : LineReplacement) :
    Agree host P base (e.checkReplace host r) (e.applyReplace host r) := by
  simp only [LineEdit.checkReplace, LineEdit.applyReplace, here, LineEdit.readFile, bind_assoc, pure_bind]
  refine Agree.bind (Tells.except (parsePattern r.pattern)) fun p _ => ?_
  refine Agree.bind (discreet.look (.read path) rfl rfl).ofReply fun content _ => ?_
  cases content with
  | none => exact .inSync
  | some content =>
    cases replaced : p.replaceLines? r.replacement content with
    | none =>
      simp only [Option.getD_some, Option.bind_some, replaced]
      exact .inSync
    | some updated =>
      simp only [Option.getD_some, replaced]
      exact .drifted _ _

theorem LineEdit.agree (discreet : Discreet host P base) {e : LineEdit} (fit : e.problem? = none) :
    Agree host P base (e.check host) (e.apply host) := by
  unfold LineEdit.check LineEdit.apply
  cases replacing : e.replace with
  | some r =>
    cases here : e.path with
    | none => simp [LineEdit.problem?, replacing, here] at fit
    | some path => exact agree_replace discreet here r
  | none =>
    refine Agree.bind (preview_told discreet e) fun r seen => ?_
    obtain ⟨reply, warnings, settled⟩ := settle_told e r
    refine Agree.bind settled fun _ _ => ?_
    cases changed : r.isChanged with
    | true =>
      simp only [↓reduceIte]
      exact .drifted _ _
    | false =>
      have inserted := insert_told discreet seen changed
      refine ⟨_, _, Tells.tryPure _, ?_, ?_⟩
      · intro _
        refine inserted.tryBind ?_
        simp only [changed]
        exact Tells.tryPure _
      · intro e failed
        cases failed

/-- The check of a fit resource foresees its action, unless it is a site that is torn or an ownership
that its own guard holds back. -/
theorem Spec.agree (discreet : Discreet host P base) {spec : Spec} {name : String} (fit : spec.problem? = none)
    (owned : ∀ o, spec = .ownership o →
      ∃ owner, (host.answer (.owner o.path) base.machine).1 = .ok owner ∧ owner ≠ some o.owner)
    (whole : ∀ s, spec = .site s → ¬ s.Torn host base name) :
    Agree host P base (spec.check host name) (spec.apply host name) := by
  cases spec with
  | package p => exact p.agree discreet
  | command k => exact k.agree discreet
  | lineEdit e => exact LineEdit.agree discreet fit
  | renderedFile f => exact f.agree discreet
  | workingCopy c => exact c.agree discreet
  | scheduledJob j => exact j.agree discreet name
  | site s => exact Site.agree discreet (whole s rfl)
  | ownership o =>
    obtain ⟨owner, read, other⟩ := owned o rfl
    exact o.agree discreet read other

end Provision
