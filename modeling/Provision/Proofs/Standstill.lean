import Provision.Proofs.Foresight
import Provision.Proofs.Settling

namespace Provision

variable {σ α β : Type} {host : Host σ} {rs : List Resource} {start final w : World σ}

theorem Acts.continues {P : α → Call → Prop} {x : Action σ α} {f : α → Action σ β}
    (rest : ∀ a, Acts host (P a) (f a).run) (w : World σ) : (w.run x.run).2.calls <+: (w.run (x >>= f).run).2.calls := by
  have step : w.run (x >>= f).run = (w.run x.run).2.run (ExceptT.bindCont f (w.run x.run).1) := rfl
  rw [step]
  cases (w.run x.run).1 with
  | error e => exact List.prefix_rfl
  | ok a => exact ((rest a).makes _).grows

/-- All that is managed is kept, and the environment. -/
structure Kept (host : Host σ) (rs : List Resource) (w last : World σ) : Prop where
  targets : ∀ t, Managed rs t → host.Keeps w.machine last.machine t
  env : last.context.env = w.context.env

theorem Kept.trans {last next : World σ} (first : Kept host rs w next) (second : Kept host rs next last) :
    Kept host rs w last where
  targets := fun t managed => (first.targets t managed).trans (second.targets t managed)
  env := second.env.trans first.env

theorem Kept.looked (faithful : Faithful host rs start final) (passes : Passes host start final w) {c : Call}
    (ends : (w.after host c).calls <+: final.calls) (looks : c.mutates = false) : Kept host rs w (w.after host c) where
  targets := fun _ managed => faithful.looked passes (Made.after looks) ends managed
  env := rfl

/-- The action has nothing to do, and looks only. -/
def LeavesAlone (host : Host σ) (w : World σ) (x : Action σ Change) : Prop :=
  ∃ last, w.run x.run = (.ok .unchanged, last) ∧ Made host (fun c => c.mutates = false) w last ∧
    last.context.env = w.context.env

theorem Package.leavesAlone {p : Package} (settled : p.Settled host w.machine) : LeavesAlone host w (p.apply host) := by
  obtain ⟨installed, read, satisfied⟩ := settled
  have unchanged := Package.apply_eq_ok.mpr ⟨installed, read, .inl ⟨satisfied, rfl, rfl⟩⟩
  exact ⟨w.after host (.installedVersion p.package), unchanged, Made.after rfl, rfl⟩

theorem ScheduledJob.leavesAlone {j : ScheduledJob} {name : String} (settled : j.Settled host w.machine name) :
    LeavesAlone host w (j.apply host name) := by
  unfold ScheduledJob.Settled at settled
  cases read : (host.answer (.jobs j.user) w.machine).1 with
  | error fault =>
    rw [read] at settled
    cases settled
  | ok jobs =>
    rw [read] at settled
    have found : jobs.find? (·.name == name) = some (j.entry name) := Except.ok.inj settled
    have looked := (installed_eq_ok host).mpr ⟨jobs, read, found.symm, rfl⟩
    refine ⟨w.after host (.jobs j.user), World.try_bind_eq_ok.mpr ⟨_, _, looked, ?_⟩, Made.after rfl, rfl⟩
    rw [if_pos rfl]
    rfl

theorem Rendering.make_settled (faithful : Faithful host rs start final) {path template : String} {context : Json}
    (managed : Managed rs (.file path)) (passes : Passes host start final w)
    (ends : (w.run (make host path template context).run).2.calls <+: final.calls)
    (settled : Settled host start w path template context) :
    ∃ r last, w.run (make host path template context).run = (.ok r, last) ∧ r.isCurrent = true ∧
      Made host (fun c => c.mutates = false) w last ∧ last.context.env = w.context.env := by
  obtain ⟨content, told, read⟩ := settled
  have rest : ∀ content, Acts host (MayCall path template) (do
      let existing ← Action.ofReply (perform host (.read path))
      return (⟨path, content, existing⟩ : Rendering) : Action σ Rendering).run :=
    fun _ => .tryBind (.ofReply (.call _ (Or.inr (Or.inl rfl)))) fun _ => .tryPure _
  have first : (w.after host (.render template context)).calls <+: final.calls :=
    (Acts.continues rest w).trans ends
  obtain ⟨earlier, between, meets, answered⟩ := told.again passes first
  have text := (faithful.renderAgain _ _ _ _ _ meets).trans answered
  have kept := faithful.looked passes (Made.after rfl) first managed
  have made := (make_eq_ok host).mpr ⟨content, some content, text, Eq.trans kept read, rfl, rfl⟩
  have firstLook : Made host (fun c => c.mutates = false) w (w.after host (.render template context)) :=
    Made.after rfl
  have secondLook : Made host (fun c => c.mutates = false) (w.after host (.render template context))
    ((w.after host (.render template context)).after host (.read path)) := Made.after rfl
  exact ⟨_, _, made, by simp [isCurrent], firstLook.trans secondLook, rfl⟩

theorem Rendering.write_current {r : Rendering} (current : r.isCurrent = true) : r.write host = pure .unchanged := by
  unfold Rendering.write
  rw [if_pos current]

theorem RenderedFile.leavesAlone (faithful : Faithful host rs start final) {f : RenderedFile}
    (managed : Managed rs (.file f.path)) (passes : Passes host start final w)
    (ends : (w.run (f.apply host).run).2.calls <+: final.calls)
    (settled : Rendering.Settled host start w f.path f.source (f.context w.context.node)) :
    LeavesAlone host w (f.apply host) := by
  have first : (w.run (f.render host).run).2.calls <+: final.calls :=
    (Acts.continues (fun r => r.write_acts host f.source) w).trans ends
  obtain ⟨r, last, made, current, looks⟩ := Rendering.make_settled faithful managed passes first settled
  refine ⟨last, World.try_bind_eq_ok.mpr ⟨r, last, made, ?_⟩, looks⟩
  rw [Rendering.write_current current]
  rfl

theorem LineEdit.run_readFile (path : String) (w : World σ) : w.run (readFile host path).run =
    (((host.answer (.read path) w.machine).1.map (·.getD "")).mapError .collaborator, w.after host (.read path)) := by
  have looked : w.run (perform host (.read path)) =
      ((host.answer (.read path) w.machine).1, w.after host (.read path)) := rfl
  rw [readFile, World.try_bind, World.try_ofReply, looked]
  cases (host.answer (.read path) w.machine).1 <;> rfl

theorem LineEdit.readFile_eq {path : String} {content : Option String}
    (read : (host.answer (.read path) w.machine).1 = .ok content) :
    w.run (readFile host path).run = (.ok (content.getD ""), w.after host (.read path)) := by
  rw [run_readFile, read]
  rfl

theorem LineEdit.settle_eq_ok {e : LineEdit} {r : Insertion} (fine : e.policy w = .fail → r.conflicts = []) :
    ∃ warnings, w.run (e.settle r).run = (.ok (), w.warned warnings) := by
  have started : w.run (e.settle r).run = w.run (e.settleBy r (e.policy w)).run := by
    rw [settle_eq]
    rfl
  rw [started]
  cases policy : e.policy w with
  | warn => exact ⟨_, rfl⟩
  | fail =>
    unfold settleBy
    rw [fine policy]
    exact ⟨w.context.warnings, rfl⟩

theorem LineEdit.leavesAlone_replace {e : LineEdit} {x : LineReplacement} (replacing : e.replace = some x)
    (settled : e.Settled host w) : LeavesAlone host w (e.applyReplace host x) := by
  unfold Settled at settled
  rw [replacing] at settled
  unfold applyReplace
  cases here : e.path with
  | none =>
    rw [here] at settled
    exact settled.elim
  | some path =>
    rw [here] at settled
    obtain ⟨p, content, pattern, read, nothing⟩ := settled
    have parsed : w.run (liftM (parsePattern x.pattern) : Action σ Pattern).run = (.ok p, w) := by
      rw [pattern]
      rfl
    have looked : w.run (Action.ofReply (perform host (.read path))).run = (.ok content, w.after host (.read path)) :=
      World.try_ofReply_eq_ok.mpr (Prod.ext read rfl)
    refine ⟨w.after host (.read path), World.try_bind_eq_ok.mpr ⟨p, w, parsed, ?_⟩, Made.after rfl, rfl⟩
    refine World.try_bind_eq_ok.mpr ⟨_, _, looked, ?_⟩
    rw [nothing]
    rfl

theorem LineEdit.apply_unchanged {e : LineEdit} {r : Insertion} {seen mid last : World σ}
    (inserting : e.replace = none) (previewed : w.run (e.preview host).run = (.ok r, seen))
    (noConflict : seen.run (e.settle r).run = (.ok (), mid)) (inserted : mid.run (e.insert host).run = (.ok r, last))
    (unchanged : r.isChanged = false) : w.run (e.apply host).run = (.ok .unchanged, last) := by
  unfold apply
  rw [inserting]
  refine World.try_bind_eq_ok.mpr ⟨_, _, previewed, World.try_bind_eq_ok.mpr ⟨_, _, noConflict,
    World.try_bind_eq_ok.mpr ⟨_, _, inserted, ?_⟩⟩⟩
  rw [unchanged]
  rfl

theorem LineEdit.leavesAlone_environment {e : LineEdit} (inserting : e.replace = none) (here : e.path = none)
    (settled : e.Settled host w) : LeavesAlone host w (e.apply host) := by
  unfold Settled at settled
  rw [inserting, here] at settled
  obtain ⟨unchanged, fine⟩ := settled.pass
  rw [← Environment.insertAll_eq_pass] at unchanged fine
  obtain ⟨warnings, noConflict⟩ := settle_eq_ok fine
  have previewed : w.run (e.preview host).run = (.ok (w.context.env.insertAll e.bindings).2, w) := by
    unfold preview
    rw [here]
    rfl
  have inserted : (w.warned warnings).run (e.insert host).run =
      (.ok (w.context.env.insertAll e.bindings).2, w.warned warnings) := by
    have same : { (w.warned warnings).context with env := (w.context.env.insertAll e.bindings).1 } =
        (w.warned warnings).context := by
      rw [Environment.insertAll_unchanged unchanged]
      rfl
    have started : (w.warned warnings).run (e.insert host).run = (.ok (w.context.env.insertAll e.bindings).2,
        { w.warned warnings with
          context := { (w.warned warnings).context with env := (w.context.env.insertAll e.bindings).1 } }) := by
      unfold insert
      rw [here]
      rfl
    rw [started, same]
  exact ⟨_, apply_unchanged inserting previewed noConflict inserted unchanged, Made.warned w warnings, rfl⟩

theorem LineEdit.leavesAlone_file (faithful : Faithful host rs start final) {e : LineEdit} {path : String}
    (inserting : e.replace = none) (here : e.path = some path) (managed : Managed rs (.file path))
    (passes : Passes host start final w) (ends : (w.run (e.apply host).run).2.calls <+: final.calls)
    (settled : e.Settled host w) : LeavesAlone host w (e.apply host) := by
  unfold Settled at settled
  rw [inserting, here] at settled
  obtain ⟨content, read, held⟩ := settled
  obtain ⟨unchanged, fine⟩ := held.pass
  rw [← Binding.insertLines_account] at unchanged fine
  have previewed : w.run (e.preview host).run =
      (.ok (Binding.insertLines (content.getD "") e.bindings e.lineSyntax).2, w.after host (.read path)) := by
    unfold preview
    rw [here]
    exact World.try_bind_eq_ok.mpr ⟨_, _, readFile_eq read, rfl⟩
  -- Faithful is what the whole action called, and the look at the file is its beginning.
  have rest : ∀ r, Acts host e.MayCall (do
      e.settle r
      let r ← e.insert host
      if r.isChanged then return Change.converged (e.describeInsertion r)
      return Change.unchanged : Action σ Change).run := by
    intro r
    refine .tryBind (e.settle_acts host r _) fun _ => .tryBind (e.insert_acts host) fun r => ?_
    split <;> exact .tryPure _
  have first : (w.after host (.read path)).calls <+: final.calls := by
    unfold apply at ends
    rw [inserting] at ends
    have continues := (Acts.continues (x := e.preview host) rest w).trans ends
    rwa [previewed] at continues
  have kept := faithful.looked passes (Made.after rfl) first managed
  obtain ⟨warnings, noConflict⟩ := settle_eq_ok (w := w.after host (.read path)) fine
  have inserted : ((w.after host (.read path)).warned warnings).run (e.insert host).run =
      (.ok (Binding.insertLines (content.getD "") e.bindings e.lineSyntax).2,
        ((w.after host (.read path)).warned warnings).after host (.read path)) := by
    unfold insert
    rw [here]
    refine World.try_bind_eq_ok.mpr ⟨_, _, readFile_eq (Eq.trans kept read), ?_⟩
    dsimp only
    rw [unchanged]
    rfl
  have looks : Made host (fun c => c.mutates = false) w (w.after host (.read path)) := Made.after rfl
  have looksAgain : Made host (fun c => c.mutates = false) ((w.after host (.read path)).warned warnings)
    (((w.after host (.read path)).warned warnings).after host (.read path)) := Made.after rfl
  exact ⟨_, apply_unchanged inserting previewed noConflict inserted unchanged,
    (looks.trans (Made.warned _ warnings)).trans looksAgain, rfl⟩

theorem LineEdit.leavesAlone (faithful : Faithful host rs start final) {e : LineEdit}
    (managed : ∀ path, e.path = some path → Managed rs (.file path)) (passes : Passes host start final w)
    (ends : (w.run (e.apply host).run).2.calls <+: final.calls) (settled : e.Settled host w) :
    LeavesAlone host w (e.apply host) := by
  cases replacing : e.replace with
  | some x =>
    unfold apply
    rw [replacing]
    exact leavesAlone_replace replacing settled
  | none =>
    cases here : e.path with
    | none => exact leavesAlone_environment replacing here settled
    | some path => exact leavesAlone_file faithful replacing here (managed path here) passes ends settled

theorem Site.linkState_eq {s : Site} {name : String} {found : Option String}
    (read : (host.answer (.readLink (s.linkPath name)) w.machine).1 = .ok found) :
    w.run (s.linkState host name).run =
      (.ok (s.linkStateOf name found), w.after host (.readLink (s.linkPath name))) := by
  have asked : w.run (Action.ofReply (perform host (.readLink (s.linkPath name)))).run =
      (.ok found, w.after host (.readLink (s.linkPath name))) := World.try_ofReply_eq_ok.mpr (Prod.ext read rfl)
  refine World.try_bind_eq_ok.mpr ⟨_, _, asked, ?_⟩
  cases found <;> rfl

theorem Site.finish_settled {s : Site} {name : String} {found : Option String}
    (read : (host.answer (.readLink (s.linkPath name)) w.machine).1 = .ok found)
    (fits : (s.linkDrift name (s.linkStateOf name found)).isEmpty = true) :
    w.run (s.finish host name .unchanged).run = (.ok .unchanged, w.after host (.readLink (s.linkPath name))) := by
  refine World.try_bind_eq_ok.mpr ⟨_, _, linkState_eq read, ?_⟩
  rw [settleLink_settled fits]
  rfl

theorem Site.leavesAlone (faithful : Faithful host rs start final) {s : Site} {name : String}
    (file : Managed rs (.file (s.configPath name))) (link : Managed rs (.link (s.linkPath name)))
    (passes : Passes host start final w) (ends : (w.run (s.apply host name).run).2.calls <+: final.calls)
    (settled : s.Settled host start w name) : LeavesAlone host w (s.apply host name) := by
  obtain ⟨rendered, found, read, fits⟩ := settled
  rw [apply_eq] at ends ⊢
  have rest : ∀ r : Rendering, Acts host (fun _ => True) (do s.finish host name (← r.write host)).run := fun r =>
    .tryBind ((r.write_acts host s.template).mono fun _ _ => trivial) fun written =>
      (s.finish_acts host name written).mono fun _ _ => trivial
  have first : (w.run (s.render host name).run).2.calls <+: final.calls := (Acts.continues rest w).trans ends
  obtain ⟨r, last, made, current, looks, env⟩ := Rendering.make_settled faithful file passes first rendered
  have renders : w.run (s.render host name).run = (.ok r, last) := made
  rw [renders] at first
  have kept := faithful.looked passes looks first link
  have finished := finish_settled (Eq.trans kept read) fits
  refine ⟨last.after host (.readLink (s.linkPath name)), World.try_bind_eq_ok.mpr ⟨_, _, renders, ?_⟩, ?_⟩
  · rw [Rendering.write_current current]
    exact finished
  · exact ⟨looks.trans (Made.after rfl), env⟩

def WorkingCopy.fetch (host : Host σ) (c : WorkingCopy) (before : Option String) : Action σ Change := do
  let after ← Action.ofReply (perform host (.checkout c.request))
  if before == some after then return .unchanged
  return .converged (c.destination ++ " now at " ++ after)

theorem WorkingCopy.fetch_acts (c : WorkingCopy) (before : Option String) :
    Acts host c.MayCall (c.fetch host before).run := by
  refine .tryBind (.ofReply (.call _ (Or.inr rfl))) fun after => ?_
  split <;> exact .tryPure _

theorem WorkingCopy.run_apply {c : WorkingCopy} {before : Option String}
    (read : (host.answer (.revision c.destination) w.machine).1 = .ok before) :
    w.run (c.apply host).run = (w.after host (.revision c.destination)).run
      (if c.isAt before then pure .unchanged else c.fetch host before).run := by
  have looked : w.run (Action.ofReply (perform host (.revision c.destination))).run =
      (.ok before, w.after host (.revision c.destination)) :=
    World.try_ofReply_eq_ok.mpr (Prod.ext read rfl)
  change w.run (Action.ofReply (perform host (.revision c.destination)) >>= _).run = _
  rw [World.try_bind, looked]
  rfl

/-- Fetching again what was fetched changes nothing. -/
theorem WorkingCopy.fetch_again (faithful : Faithful host rs start final) {c : WorkingCopy} {revision : String}
    (passes : Passes host start final w) (ends : (w.run (c.fetch host (some revision)).run).2.calls <+: final.calls)
    (read : (host.answer (.revision c.destination) w.machine).1 = .ok (some revision))
    (told : Told host start w (.checkout c.request) (.ok revision)) :
    w.run (c.fetch host (some revision)).run = (.ok .unchanged, w.after host (.checkout c.request)) ∧
      Kept host rs w (w.after host (.checkout c.request)) := by
  have rest : ∀ after, Acts host c.MayCall (if some revision == some after then return .unchanged
      else return .converged (c.destination ++ " now at " ++ after) : Action σ Change).run := by
    intro after
    split <;> exact .tryPure _
  have fetches : (w.after host (.checkout c.request)).calls <+: final.calls := (Acts.continues rest w).trans ends
  obtain ⟨earlier, between, meets, answered⟩ := told.again passes fetches
  obtain ⟨same, kept⟩ := faithful.checkoutAgain _ _ _ _ _ meets answered
  constructor
  · have fetched : w.run (Action.ofReply (perform host (.checkout c.request))).run =
        (.ok revision, w.after host (.checkout c.request)) := World.try_ofReply_eq_ok.mpr (Prod.ext same rfl)
    refine World.try_bind_eq_ok.mpr ⟨_, _, fetched, ?_⟩
    rw [if_pos (beq_self_eq_true _)]
    rfl
  · refine ⟨fun t managed => ?_, rfl⟩
    by_cases own : t = .workingCopy c.destination
    · subst own
      exact Eq.trans (faithful.checkout _ _ _ _ meets same) read.symm
    · exact kept t managed own

def Rests (host : Host σ) (rs : List Resource) (w : World σ) (x : Action σ Change) : Prop :=
  ∃ last, w.run x.run = (.ok .unchanged, last) ∧ Kept host rs w last

theorem LeavesAlone.rests {x : Action σ Change} (faithful : Faithful host rs start final)
    (passes : Passes host start final w) (ends : (w.run x.run).2.calls <+: final.calls)
    (alone : LeavesAlone host w x) : Rests host rs w x := by
  obtain ⟨last, ran, looks, env⟩ := alone
  rw [ran] at ends
  exact ⟨last, ran, fun t managed => faithful.looked passes looks ends managed, env⟩

theorem WorkingCopy.rests (faithful : Faithful host rs start final) {c : WorkingCopy}
    (managed : Managed rs (.workingCopy c.destination)) (passes : Passes host start final w)
    (ends : (w.run (c.apply host).run).2.calls <+: final.calls) (settled : c.Settled host start w) :
    Rests host rs w (c.apply host) := by
  obtain ⟨revision, read, fits⟩ := settled
  have ran : w.run (c.apply host).run = _ := run_apply read
  by_cases there : c.isAt (some revision) = true
  · rw [if_pos there] at ran
    rw [ran] at ends
    exact ⟨w.after host (.revision c.destination), ran, Kept.looked faithful passes ends rfl⟩
  · rw [if_neg there] at ran
    rw [ran] at ends
    have seen : (w.after host (.revision c.destination)).calls <+: final.calls :=
      ((fetch_acts c (some revision)).makes _).grows.trans ends
    have looked : Kept host rs w _ := Kept.looked faithful passes seen rfl
    have told := (fits.resolve_left there).after (d := .revision c.destination)
    obtain ⟨unchanged, kept⟩ :=
      fetch_again faithful (passes.after seen) ends (Eq.trans (looked.targets _ managed) read) told
    exact ⟨_, ran.trans unchanged, looked.trans kept⟩

/-- Nothing comes of the action of a settled resource that its guards let pass. -/
theorem Resource.rests (faithful : Faithful host rs start final) {r : Resource} {opts : RunOptions}
    (member : r ∈ rs) (passes : Passes host start final w)
    (ends : (w.run (r.spec.apply host r.name).run).2.calls <+: final.calls) (unowned : ∀ o, r.spec ≠ .ownership o)
    (settled : r.Settled host opts start w) : Rests host rs w (r.spec.apply host r.name) := by
  have managed : ∀ t ∈ r.spec.targets r.name, Managed rs t := fun t present => ⟨r, member, present⟩
  unfold Resource.Settled at settled
  cases spec : r.spec with
  | command k =>
    rw [spec] at settled
    exact settled.elim
  | ownership o => exact absurd spec (unowned o)
  | package p =>
    rw [spec] at ends settled
    exact (Package.leavesAlone settled).rests faithful passes ends
  | lineEdit e =>
    rw [spec] at ends settled managed
    refine (LineEdit.leavesAlone faithful ?_ passes ends settled).rests faithful passes ends
    intro path here
    exact managed _ (by simp [Spec.targets, here])
  | renderedFile f =>
    rw [spec] at ends settled managed
    exact (RenderedFile.leavesAlone faithful (managed _ List.mem_cons_self) passes ends settled).rests
      faithful passes ends
  | workingCopy c =>
    rw [spec] at ends settled managed
    exact WorkingCopy.rests faithful (managed _ List.mem_cons_self) passes ends settled
  | scheduledJob j =>
    rw [spec] at ends settled
    exact (ScheduledJob.leavesAlone settled).rests faithful passes ends
  | site s =>
    rw [spec] at ends settled managed
    have link := managed _ (List.mem_cons_of_mem _ List.mem_cons_self)
    exact (Site.leavesAlone faithful (managed _ List.mem_cons_self) link passes ends settled).rests
      faithful passes ends

end Provision
