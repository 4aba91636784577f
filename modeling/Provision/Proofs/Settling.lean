import Provision.Proofs.Settled

namespace Provision

variable {σ : Type}

section

variable {host : Host σ} {rs : List Resource} {start final w last : World σ} {change : Change}

theorem Package.settles (faithful : Faithful host rs start final) {p : Package}
    (managed : Managed rs (.package p.package)) (passes : Passes host start final w)
    (ends : last.calls <+: final.calls) (ran : w.run (p.apply host).run = (.ok change, last)) :
    p.Settled host last.machine := by
  obtain ⟨found, read, ⟨satisfied, -, rfl⟩ | ⟨-, -, ok, -, -, rfl⟩⟩ := Package.apply_eq_ok.mp ran
  · have kept := faithful.looked passes (Made.after rfl) ends managed
    exact ⟨found, Eq.trans kept read, satisfied⟩
  · have second := (World.grows_after host _ _).trans ends
    have passes := passes.midway second
    obtain ⟨before, -, meets⟩ := passes.meets second
    obtain ⟨installed, read, satisfied⟩ := faithful.install _ _ _ _ meets ok
    have kept := faithful.looked (passes.after second) (Made.after rfl) ends managed
    exact ⟨installed, Eq.trans kept read, satisfied⟩

theorem Rendering.settles (faithful : Faithful host rs start final) {path template : String} {context : Json}
    {r : Rendering} {next : World σ} (managed : Managed rs (.file path)) (passes : Passes host start final w)
    (ends : last.calls <+: final.calls) (made : w.run (make host path template context).run = (.ok r, next))
    (written : next.run (r.write host).run = (.ok change, last)) :
    Settled host start last path template context := by
  obtain ⟨content, existing, text, read, rfl, rfl⟩ := (make_eq_ok host).mp made
  have told : Told host start (w.after host (.render template context)) _ _ := Told.here passes text
  unfold Rendering.write at written
  by_cases current : existing = some content
  · simp only [isCurrent, current, beq_self_eq_true, ↓reduceIte] at written
    cases written
    have passes := passes.midway ends
    have kept := faithful.looked passes (Made.after rfl) ends managed
    refine ⟨content, told.after, Eq.trans kept ?_⟩
    rw [← current]
    exact read
  · simp only [isCurrent, beq_eq_false_iff_ne.mpr current, Bool.false_eq_true, ↓reduceIte] at written
    obtain ⟨⟨⟩, next, done, rest⟩ := World.try_bind_eq_ok.mp written
    obtain ⟨ok, (rfl : World.after host _ _ = _)⟩ := Prod.mk.inj (World.try_ofReply_eq_ok.mp done)
    cases rest
    have second := (World.grows_after host _ _).trans ends
    have passes := (passes.midway second).midway ends
    obtain ⟨before, -, meets⟩ := passes.meets ends
    exact ⟨content, told.after.after, faithful.write _ _ _ _ meets ok⟩

theorem WorkingCopy.settles (faithful : Faithful host rs start final) {c : WorkingCopy}
    (managed : Managed rs (.workingCopy c.destination)) (passes : Passes host start final w)
    (ends : last.calls <+: final.calls) (ran : w.run (c.apply host).run = (.ok change, last)) :
    c.Settled host start last := by
  obtain ⟨before, next, looked, rest⟩ := World.try_bind_eq_ok.mp ran
  obtain ⟨read, (rfl : World.after host _ _ = _)⟩ := Prod.mk.inj (World.try_ofReply_eq_ok.mp looked)
  by_cases there : c.isAt before = true
  · rw [if_pos there] at rest
    cases rest
    have kept := faithful.looked passes (Made.after rfl) ends managed
    cases before with
    | none => cases there
    | some revision => exact ⟨revision, Eq.trans kept read, Or.inl there⟩
  · rw [if_neg there] at rest
    obtain ⟨revision, next, done, rest⟩ := World.try_bind_eq_ok.mp rest
    obtain ⟨ok, (rfl : World.after host _ _ = _)⟩ := Prod.mk.inj (World.try_ofReply_eq_ok.mp done)
    have here : last = (w.after host (.revision c.destination)).after host (.checkout c.request) := by
      split at rest <;> cases rest <;> rfl
    subst here
    have passes := passes.midway ends
    obtain ⟨before, -, meets⟩ := passes.meets ends
    exact ⟨revision, faithful.checkout _ _ _ _ meets ok, Or.inr (Told.here passes ok)⟩

theorem ScheduledJob.settles (faithful : Faithful host rs start final) {j : ScheduledJob} {name : String}
    (managed : Managed rs (.job j.user name)) (passes : Passes host start final w)
    (ends : last.calls <+: final.calls) (ran : w.run (j.apply host name).run = (.ok change, last)) :
    j.Settled host last.machine name := by
  obtain ⟨found, next, looked, rest⟩ := World.try_bind_eq_ok.mp ran
  obtain ⟨jobs, read, rfl, rfl⟩ := (installed_eq_ok host).mp looked
  by_cases same : jobs.find? (·.name == name) = some (j.entry name)
  · rw [if_pos same] at rest
    cases rest
    have kept : host.Keeps _ _ (.job j.user name) := faithful.looked passes (Made.after rfl) ends managed
    exact Eq.trans kept ((congrArg (Except.map _) read).trans (congrArg Except.ok same))
  · rw [if_neg same] at rest
    obtain ⟨⟨⟩, next, done, rest⟩ := World.try_bind_eq_ok.mp rest
    obtain ⟨ok, (rfl : World.after host _ _ = _)⟩ := Prod.mk.inj (World.try_ofReply_eq_ok.mp done)
    cases rest
    have passes := passes.midway ends
    obtain ⟨before, -, meets⟩ := passes.meets ends
    exact faithful.installJob _ _ _ meets ok

theorem Site.linkState_ok {s : Site} {name : String} {state : LinkState} {next : World σ}
    (ran : w.run (s.linkState host name).run = (.ok state, next)) :
    ∃ found, (host.answer (.readLink (s.linkPath name)) w.machine).1 = .ok found ∧
      state = s.linkStateOf name found ∧ next = w.after host (.readLink (s.linkPath name)) := by
  obtain ⟨found, last, looked, rest⟩ := World.try_bind_eq_ok.mp ran
  obtain ⟨read, (rfl : World.after host _ _ = _)⟩ := Prod.mk.inj (World.try_ofReply_eq_ok.mp looked)
  refine ⟨found, read, ?_⟩
  cases found with
  | none => exact ⟨(Except.ok.inj (congrArg Prod.fst rest)).symm, (congrArg Prod.snd rest).symm⟩
  | some target => exact ⟨(Except.ok.inj (congrArg Prod.fst rest)).symm, (congrArg Prod.snd rest).symm⟩

theorem Site.settleLink_settles (faithful : Faithful host rs start final) {s : Site} {name : String}
    {found : Option String} {linked : List String} (passes : Passes host start final w)
    (ends : last.calls <+: final.calls) (read : (host.answer (.readLink (s.linkPath name)) w.machine).1 = .ok found)
    (ran : w.run (s.settleLink host name (s.linkStateOf name found)).run = (.ok linked, last)) :
    ∃ found, (host.answer (.readLink (s.linkPath name)) last.machine).1 = .ok found ∧
      (s.linkDrift name (s.linkStateOf name found)).isEmpty = true := by
  have correct : s.linkStateOf name (some (s.configPath name)) = .correct := by simp [linkStateOf, Path.same]
  unfold Site.settleLink at ran
  dsimp only at ran
  -- One case a branch of the action: its last call is one for the link, and is faithful.
  cases enabled : s.enabled with
  | true =>
    simp only [enabled] at ran
    cases state : s.linkStateOf name found with
    | correct =>
      simp only [state] at ran
      cases ran
      exact ⟨found, read, by simp [linkDrift, state, enabled]⟩
    | missing =>
      simp only [state] at ran
      obtain ⟨⟨⟩, next, done, rest⟩ := World.try_bind_eq_ok.mp ran
      obtain ⟨ok, (rfl : World.after host _ _ = _)⟩ := Prod.mk.inj (World.try_ofReply_eq_ok.mp done)
      cases rest
      obtain ⟨before, -, meets⟩ := passes.meets ends
      exact ⟨_, faithful.symlink _ _ _ _ meets ok, by simp [linkDrift, correct, enabled]⟩
    | wrongTarget target =>
      simp only [state] at ran
      obtain ⟨⟨⟩, next, done, rest⟩ := World.try_bind_eq_ok.mp ran
      obtain ⟨-, (rfl : World.after host _ _ = _)⟩ := Prod.mk.inj (World.try_ofReply_eq_ok.mp done)
      obtain ⟨⟨⟩, next, done, rest⟩ := World.try_bind_eq_ok.mp rest
      obtain ⟨ok, (rfl : World.after host _ _ = _)⟩ := Prod.mk.inj (World.try_ofReply_eq_ok.mp done)
      cases rest
      obtain ⟨before, -, meets⟩ := (passes.midway ends).meets ends
      exact ⟨_, faithful.symlink _ _ _ _ meets ok, by simp [linkDrift, correct, enabled]⟩
  | false =>
    simp only [enabled] at ran
    cases state : s.linkStateOf name found with
    | missing =>
      simp only [state] at ran
      cases ran
      exact ⟨found, read, by simp [linkDrift, state, enabled]⟩
    | correct | wrongTarget target =>
      simp only [state] at ran
      obtain ⟨⟨⟩, next, done, rest⟩ := World.try_bind_eq_ok.mp ran
      obtain ⟨ok, (rfl : World.after host _ _ = _)⟩ := Prod.mk.inj (World.try_ofReply_eq_ok.mp done)
      cases rest
      obtain ⟨before, -, meets⟩ := passes.meets ends
      exact ⟨none, faithful.remove _ _ _ meets ok, by simp [linkDrift, linkStateOf, enabled]⟩

theorem Site.settles (faithful : Faithful host rs start final) {pre post : List Resource} {r : Resource} {s : Site}
    (order : rs = pre ++ r :: post) (spec : r.spec = .site s)
    (apart : Path.same (s.linkPath r.name) (s.configPath r.name) = false) (passes : Passes host start final w)
    (ends : last.calls <+: final.calls) (ran : w.run (s.apply host r.name).run = (.ok change, last)) :
    s.Settled host start last r.name := by
  have targets : r.targets = [.file (s.configPath r.name), .link (s.linkPath r.name)] := by
    simp [Resource.targets, Spec.targets, spec]
  have member : r ∈ rs := by simp [order]
  have file : Managed rs (.file (s.configPath r.name)) := ⟨r, member, by simp [targets]⟩
  have link : Managed rs (.link (s.linkPath r.name)) := ⟨r, member, by simp [targets]⟩
  have steady : w.context.Steady last.context := ((s.apply_acts host r.name).made ran).context
  rw [apply_eq] at ran
  obtain ⟨rendering, next, rendered, rest⟩ := World.try_bind_eq_ok.mp ran
  obtain ⟨context, here, got, made⟩ := World.try_bind_eq_ok.mp rendered
  cases got
  obtain ⟨written, mid, wrote, rest⟩ := World.try_bind_eq_ok.mp rest
  have finished := (s.finish_acts host r.name written).made rest
  have midEnds := finished.grows.trans ends
  have config := Rendering.settles faithful file passes midEnds made wrote
  obtain ⟨state, seen, looked, rest⟩ := World.try_bind_eq_ok.mp rest
  obtain ⟨found, read, rfl, rfl⟩ := linkState_ok looked
  obtain ⟨linked, after, settled, rest⟩ := World.try_bind_eq_ok.mp rest
  -- What is told of the link makes no call.
  have same : after = last := by
    cases written <;> (dsimp only at rest; split at rest <;> cases rest <;> rfl)
  subst same
  have linkMade := (s.settleLink_acts host r.name _).made settled
  have seenEnds := linkMade.grows.trans ends
  have midPasses := passes.made (Rendering.made host made wrote) midEnds
  have seenPasses := midPasses.after seenEnds
  have looked := fun t managed => faithful.looked (t := t) midPasses (Made.after rfl) seenEnds managed
  -- The link lies apart from the configuration, so settling it keeps what was written.
  have kept : host.Keeps _ after.machine (.file (s.configPath r.name)) :=
    seenPasses.keeps linkMade ends fun before m c meets links =>
      faithful.elsewhere pre r post order before m c meets (Or.inr (by rw [spec]; exact Or.inr (Or.inr links))) r
        (by simp) _ (by simp [targets]) (links.touches_file.trans apart)
  constructor
  · rw [steady.node]
    exact config.kept finished.grows ((looked _ file).trans kept)
  · exact settleLink_settles faithful seenPasses ends (Eq.trans (looked (.link (s.linkPath r.name)) link) read) settled

def World.warned (w : World σ) (warnings : List String) : World σ := { w with context := { w.context with warnings } }

theorem Made.warned {P : Call → Prop} (w : World σ) (warnings : List String) : Made host P w (w.warned warnings) :=
  ⟨⟨[], (List.append_nil _).symm, rfl, by simp⟩, rfl, rfl, rfl, fun _ _ => id⟩

theorem LineEdit.settle_ok {e : LineEdit} {r : Insertion} {next : World σ}
    (ran : w.run (e.settle r).run = (.ok (), next)) :
    (∃ warnings, next = w.warned warnings) ∧ (e.policy w = .fail → r.conflicts = []) := by
  obtain ⟨context, here, got, rest⟩ := World.try_bind_eq_ok.mp ran
  cases got
  unfold policy
  split at rest
  · cases rest
  · rename_i none
    cases rest
    exact ⟨⟨_, rfl⟩, fun _ => none⟩
  · rename_i warn
    cases rest
    refine ⟨⟨_, rfl⟩, fun fail => ?_⟩
    rw [warn] at fail
    cases fail

theorem LineEdit.readFile_ok {path text : String} {next : World σ}
    (ran : w.run (readFile host path).run = (.ok text, next)) :
    ∃ content, (host.answer (.read path) w.machine).1 = .ok content ∧ text = content.getD "" ∧
      next = w.after host (.read path) := by
  obtain ⟨content, last, looked, rest⟩ := World.try_bind_eq_ok.mp ran
  obtain ⟨read, (rfl : World.after host _ _ = _)⟩ := Prod.mk.inj (World.try_ofReply_eq_ok.mp looked)
  cases rest
  exact ⟨content, read, rfl, rfl⟩

theorem LineEdit.preview_ok {e : LineEdit} {path : String} (here : e.path = some path) {account : Insertion}
    {next : World σ} (ran : w.run (e.preview host).run = (.ok account, next)) :
    ∃ content, (host.answer (.read path) w.machine).1 = .ok content ∧
      account = (Binding.insertLines (content.getD "") e.bindings e.lineSyntax).2 ∧
      next = w.after host (.read path) := by
  unfold preview at ran
  rw [here] at ran
  obtain ⟨text, seen, looked, rest⟩ := World.try_bind_eq_ok.mp ran
  obtain ⟨content, read, rfl, rfl⟩ := readFile_ok looked
  cases rest
  exact ⟨content, read, rfl, rfl⟩

theorem LineEdit.insert_ok {e : LineEdit} {path : String} (here : e.path = some path) {account : Insertion}
    {next : World σ} (ran : w.run (e.insert host).run = (.ok account, next)) :
    ∃ content, (host.answer (.read path) w.machine).1 = .ok content ∧
      ((Binding.insertLines (content.getD "") e.bindings e.lineSyntax).2.isChanged = false ∧
          next = w.after host (.read path) ∨
        ∃ updated, updated = (Binding.insertLines (content.getD "") e.bindings e.lineSyntax).1 ∧
          (host.answer (.write path updated) (w.after host (.read path)).machine).1 = .ok () ∧
          next = (w.after host (.read path)).after host (.write path updated)) := by
  unfold insert at ran
  rw [here] at ran
  obtain ⟨text, seen, looked, rest⟩ := World.try_bind_eq_ok.mp ran
  obtain ⟨content, read, rfl, rfl⟩ := readFile_ok looked
  refine ⟨content, read, ?_⟩
  dsimp only at rest
  cases changed : (Binding.insertLines (content.getD "") e.bindings e.lineSyntax).2.isChanged with
  | false =>
    rw [changed] at rest
    cases rest
    exact Or.inl ⟨rfl, rfl⟩
  | true =>
    rw [changed] at rest
    obtain ⟨⟨⟩, last, done, rest⟩ := World.try_bind_eq_ok.mp rest
    obtain ⟨ok, (rfl : World.after host _ _ = _)⟩ := Prod.mk.inj (World.try_ofReply_eq_ok.mp done)
    cases rest
    exact Or.inr ⟨_, rfl, ok, rfl⟩

theorem Binding.insertLines_unchanged {content : String} {bindings : List Binding} {syn : LineSyntax}
    (unchanged : (insertLines content bindings syn).2.isChanged = false) :
    (insertLines content bindings syn).1 = content := by
  obtain ⟨new, -, -, result⟩ := insertLines_eq content bindings syn
  rw [result] at unchanged ⊢
  exact if_neg (Bool.eq_false_iff.mp unchanged)

theorem LineEdit.insert_leaves (faithful : Faithful host rs start final) {e : LineEdit} {path : String}
    (here : e.path = some path) (inserting : e.replace = none) (managed : Managed rs (.file path))
    (passes : Passes host start final w) (ends : last.calls <+: final.calls)
    (ran : w.run (e.apply host).run = (.ok change, last)) :
    ∃ content after, (host.answer (.read path) w.machine).1 = .ok content ∧
      (host.answer (.read path) last.machine).1 = .ok after ∧
      after.getD "" = (Binding.insertLines (content.getD "") e.bindings e.lineSyntax).1 ∧
      (e.policy w = .fail → (Binding.insertLines (content.getD "") e.bindings e.lineSyntax).2.conflicts = []) := by
  unfold apply at ran
  rw [inserting] at ran
  obtain ⟨account, next, previewed, rest⟩ := World.try_bind_eq_ok.mp ran
  obtain ⟨content, read, rfl, rfl⟩ := preview_ok here previewed
  obtain ⟨⟨⟩, mid, settled, rest⟩ := World.try_bind_eq_ok.mp rest
  obtain ⟨inserted, next, done, rest⟩ := World.try_bind_eq_ok.mp rest
  have same : next = last := by
    split at rest <;> cases rest <;> rfl
  subst same
  obtain ⟨again, readAgain, outcome⟩ := insert_ok here done
  have midEnds := ((e.insert_acts host).made done).grows.trans ends
  obtain ⟨⟨warnings, rfl⟩, noConflict⟩ := settle_ok settled
  have kept := faithful.looked passes (Made.after rfl) midEnds managed
  have seen := passes.after midEnds
  have midPasses : Passes host start final _ := ⟨seen.since, midEnds⟩
  have same : again = content := Except.ok.inj (readAgain.symm.trans (Eq.trans kept read))
  subst same
  rcases outcome with ⟨unchanged, rfl⟩ | ⟨updated, rfl, ok, rfl⟩
  · have still := faithful.looked midPasses (Made.after rfl) ends managed
    exact ⟨again, again, read, Eq.trans still readAgain, (Binding.insertLines_unchanged unchanged).symm, noConflict⟩
  · obtain ⟨before, -, meets⟩ := (midPasses.midway ends).meets ends
    exact ⟨again, _, read, faithful.write _ _ _ _ meets ok, rfl, noConflict⟩

/-- An edit of bindings leaves settled what another one settled in the same file. -/
theorem LineEdit.insert_shares (faithful : Faithful host rs start final) {e other : LineEdit} {path otherPath : String}
    (here : e.path = some path) (inserting : e.replace = none) (otherHere : other.path = some otherPath)
    (otherInserting : other.replace = none) (same : Path.same otherPath path = true)
    (managed : Managed rs (.file path)) (otherManaged : Managed rs (.file otherPath))
    (lines : ∀ b ∈ other.bindings, b.Single) (passes : Passes host start final w) (ends : last.calls <+: final.calls)
    (ran : w.run (other.apply host).run = (.ok change, last)) (settled : e.Settled host w) : e.Settled host last := by
  have made := (other.apply_acts host).made ran
  have policy := e.policy_steady made.context
  unfold Settled at settled ⊢
  rw [inserting, here] at settled ⊢
  obtain ⟨content, read, held⟩ := settled
  obtain ⟨otherContent, after, otherRead, left, text, -⟩ :=
    insert_leaves faithful otherHere otherInserting otherManaged passes ends ran
  have sameContent : otherContent = content :=
    Except.ok.inj (otherRead.symm.trans ((faithful.spelled passes otherManaged managed same).trans read))
  subst sameContent
  have leaves := (faithful.spelled (passes.made made ends) otherManaged managed same).symm.trans left
  refine ⟨after, leaves, ?_⟩
  rw [text, policy]
  exact held.kept fun key value found => Binding.insertLines_keeps lines found

theorem LineEdit.replace_settles (faithful : Faithful host rs start final) {e : LineEdit} {x : LineReplacement}
    (replacing : e.replace = some x) (single : SingleLine x.replacement)
    (managed : ∀ path, e.path = some path → Managed rs (.file path)) (passes : Passes host start final w)
    (ends : last.calls <+: final.calls) (ran : w.run (e.applyReplace host x).run = (.ok change, last)) :
    e.Settled host last := by
  unfold applyReplace at ran
  cases here : e.path with
  | none =>
    rw [here] at ran
    cases ran
  | some path =>
    rw [here] at ran
    obtain ⟨p, next, parsed, rest⟩ := World.try_bind_eq_ok.mp ran
    obtain ⟨pattern, (rfl : w = next)⟩ : parsePattern x.pattern = .ok p ∧ w = next := by
      cases pattern : parsePattern x.pattern <;> rw [pattern] at parsed <;> cases parsed
      exact ⟨rfl, rfl⟩
    obtain ⟨content, next, looked, rest⟩ := World.try_bind_eq_ok.mp rest
    obtain ⟨read, (rfl : World.after host _ _ = _)⟩ := Prod.mk.inj (World.try_ofReply_eq_ok.mp looked)
    unfold Settled
    rw [replacing, here]
    cases replaced : content.bind (p.replaceLines? x.replacement) with
    | none =>
      rw [replaced] at rest
      cases rest
      have kept := faithful.looked passes (Made.after rfl) ends (managed path here)
      exact ⟨p, content, pattern, Eq.trans kept read, replaced⟩
    | some updated =>
      rw [replaced] at rest
      obtain ⟨⟨⟩, next, done, rest⟩ := World.try_bind_eq_ok.mp rest
      obtain ⟨ok, (rfl : World.after host _ _ = _)⟩ := Prod.mk.inj (World.try_ofReply_eq_ok.mp done)
      cases rest
      obtain ⟨before, -, meets⟩ := (passes.midway ends).meets ends
      obtain ⟨text, -, replaced⟩ := Option.bind_eq_some_iff.mp replaced
      exact ⟨p, some updated, pattern, faithful.write _ _ _ _ meets ok,
        Pattern.replaceLines?_settled single replaced⟩

theorem LineEdit.environment_settles {e : LineEdit} (here : e.path = none) (inserting : e.replace = none)
    (ran : w.run (e.apply host).run = (.ok change, last)) :
    Environment.table.Held last.context.env e.bindings (e.policy w) := by
  unfold apply at ran
  rw [inserting] at ran
  obtain ⟨account, next, previewed, rest⟩ := World.try_bind_eq_ok.mp ran
  obtain ⟨rfl, rfl⟩ : account = (w.context.env.insertAll e.bindings).2 ∧ next = w := by
    unfold preview at previewed
    rw [here] at previewed
    cases previewed
    exact ⟨rfl, rfl⟩
  obtain ⟨⟨⟩, mid, settled, rest⟩ := World.try_bind_eq_ok.mp rest
  obtain ⟨⟨warnings, rfl⟩, noConflict⟩ := settle_ok settled
  obtain ⟨inserted, after, done, rest⟩ := World.try_bind_eq_ok.mp rest
  have same : after = last := by
    split at rest <;> cases rest <;> rfl
  subst same
  have env : after.context.env = (next.context.env.insertAll e.bindings).1 := by
    unfold insert at done
    rw [here] at done
    cases done
    rfl
  rw [env]
  exact BindingTable.held_pass Environment.table_lawful noConflict

theorem LineEdit.settles (faithful : Faithful host rs start final) {e : LineEdit}
    (managed : ∀ path, e.path = some path → Managed rs (.file path)) (lines : ∀ b ∈ e.bindings, b.Single)
    (replacements : ∀ x, e.replace = some x → SingleLine x.replacement) (passes : Passes host start final w)
    (ends : last.calls <+: final.calls) (ran : w.run (e.apply host).run = (.ok change, last)) :
    e.Settled host last := by
  cases replacing : e.replace with
  | some x =>
    unfold apply at ran
    rw [replacing] at ran
    exact replace_settles faithful replacing (replacements x replacing) managed passes ends ran
  | none =>
    have policy := e.policy_steady ((e.apply_acts host).made ran).context
    unfold Settled
    rw [replacing, policy]
    cases here : e.path with
    | none => exact environment_settles here replacing ran
    | some path =>
      obtain ⟨content, after, read, left, text, noConflict⟩ :=
        insert_leaves faithful here replacing (managed path here) passes ends ran
      rw [Binding.insertLines_account] at noConflict
      have held := BindingTable.held_pass (Binding.lineTable_lawful e.lineSyntax) noConflict
      refine ⟨after, left, ?_⟩
      rw [text]
      exact held.kept fun key value found => (Binding.insertLines_look _ _ _ key lines).trans found

theorem Ownership.settles (faithful : Faithful host rs start final) {o : Ownership} (policy : GuardErrorPolicy)
    (passes : Passes host start final w) (ends : last.calls <+: final.calls)
    (ran : w.run (o.apply host).run = (.ok change, last)) : o.Settled host last.machine policy := by
  obtain ⟨⟨⟩, next, done, rest⟩ := World.try_bind_eq_ok.mp ran
  obtain ⟨ok, (rfl : World.after host _ _ = _)⟩ := Prod.mk.inj (World.try_ofReply_eq_ok.mp done)
  cases rest
  obtain ⟨before, -, meets⟩ := passes.meets ends
  exact Or.inl (faithful.chown _ _ _ _ _ _ meets ok)

/-- An action that does not fail settles what the resource manages. -/
theorem Resource.apply_settles (faithful : Faithful host rs start final) (repeatable : Repeatable rs)
    {pre post : List Resource} {r : Resource} {opts : RunOptions} (order : rs = pre ++ r :: post)
    (apart : r.TargetsApart) (passes : Passes host start final w) (ends : last.calls <+: final.calls)
    (ran : w.run (r.spec.apply host r.name).run = (.ok change, last)) : r.Settled host opts start last := by
  have member : r ∈ rs := by simp [order]
  have managed : ∀ t ∈ r.spec.targets r.name, Managed rs t := fun t present => ⟨r, member, present⟩
  have steady := ((r.spec.apply_acts host r.name).made ran).context
  unfold Resource.Settled
  cases spec : r.spec with
  | command k =>
    have isCommand : r.kind = .command := by simp only [Resource.kind, spec, Spec.kind]
    exact absurd isCommand (repeatable.noCommand r member)
  | package p =>
    rw [spec] at ran managed
    exact Package.settles faithful (managed _ List.mem_cons_self) passes ends ran
  | lineEdit e =>
    rw [spec] at ran managed
    have lines := repeatable.lines r member
    have replacements := repeatable.replacements r member
    rw [spec] at lines replacements
    refine LineEdit.settles faithful ?_ lines replacements passes ends ran
    intro path here
    exact managed _ (by simp [Spec.targets, here])
  | renderedFile f =>
    rw [spec] at ran managed
    obtain ⟨rendering, next, rendered, written⟩ := World.try_bind_eq_ok.mp ran
    obtain ⟨context, here, got, made⟩ := World.try_bind_eq_ok.mp rendered
    cases got
    simp only [Spec.Settled, steady.node]
    exact Rendering.settles faithful (managed _ List.mem_cons_self) passes ends made written
  | workingCopy c =>
    rw [spec] at ran managed
    exact WorkingCopy.settles faithful (managed _ List.mem_cons_self) passes ends ran
  | scheduledJob j =>
    rw [spec] at ran managed
    exact ScheduledJob.settles faithful (managed _ List.mem_cons_self) passes ends ran
  | site s =>
    rw [spec] at ran
    unfold Resource.TargetsApart Resource.targets at apart
    rw [spec] at apart
    have linkApart : Path.same (s.linkPath r.name) (s.configPath r.name) = false :=
      (List.pairwise_cons.mp apart).1 (.link (s.linkPath r.name)) List.mem_cons_self
    exact Site.settles faithful order spec linkApart passes ends ran
  | ownership o =>
    rw [spec] at ran
    exact Ownership.settles faithful _ passes ends ran

end

end Provision
