import Provision.Proofs.Bindings
import Provision.Proofs.Calls
import Provision.Resource.Basic

namespace Provision

variable {σ α : Type}

open Composed

variable (host : Host σ)

/-- A call that neither runs a command nor is meant to change anything. -/
def Call.OnlyLooks (c : Call) : Prop := c.mutates = false ∧ c.isRun = false

def Package.MayCall (p : Package) (c : Call) : Prop :=
  c = .installedVersion p.package ∨ c = .install p.package p.version

theorem Package.apply_bare (p : Package) : Bare host p.MayCall (p.apply host).run := by
  refine tryBind (ofReply (call _ (Or.inl rfl))) fun installed => ?_
  split
  · exact tryPure _
  · refine tryBind (ofReply (call _ (Or.inr rfl))) fun _ => ?_
    exact tryBind (ofReply (call _ (Or.inl rfl))) fun _ => tryPure _

def Command.MayCall (k : Command) (c : Call) : Prop :=
  (∃ path, k.creates = some path ∧ c = .pathExists path) ∨ ∃ env, c = .run k.command k.user k.cwd env

theorem Command.alreadyCreated_bare (k : Command) :
    Bare host (fun c => k.MayCall c ∧ c.OnlyLooks) (k.alreadyCreated host).run := by
  unfold Command.alreadyCreated
  cases created : k.creates with
  | none => exact tryPure _
  | some path => exact lift (call _ ⟨Or.inl ⟨path, created, rfl⟩, rfl, rfl⟩)

theorem Command.apply_bare (k : Command) : Bare host k.MayCall (k.apply host).run := by
  have looked : Bare host k.MayCall (k.alreadyCreated host).run :=
    (k.alreadyCreated_bare host).mono fun _ => And.left
  refine tryBind looked fun created => ?_
  split
  · exact tryPure _
  · refine tryBind (ofReply (Composed.command _ _ _ _ fun env => Or.inr ⟨env, rfl⟩)) fun output => ?_
    split
    · exact tryPure _
    · exact tryThrow _

def LineEdit.MayCall (e : LineEdit) (c : Call) : Prop :=
  ∃ path, e.path = some path ∧ (c = .read path ∨ ∃ contents, c = .write path contents)

theorem LineEdit.readFile_bare {e : LineEdit} {path : String} (here : e.path = some path) :
    Bare host (fun c => e.MayCall c ∧ c.OnlyLooks) (readFile host path).run :=
  tryBind (ofReply (call _ ⟨⟨path, here, Or.inl rfl⟩, rfl, rfl⟩)) fun _ => tryPure _

theorem LineEdit.preview_bare (e : LineEdit) :
    Bare host (fun c => e.MayCall c ∧ c.OnlyLooks) (e.preview host).run := by
  unfold LineEdit.preview
  cases here : e.path with
  | none => exact tryBind tryContext fun _ => tryPure _
  | some path => exact tryBind (readFile_bare host here) fun _ => tryPure _

theorem LineEdit.settle_looks (e : LineEdit) (r : Insertion) (P : Call → Prop) :
    Looks host P (e.settle (σ := σ) r).run := by
  refine tryBind tryContext fun context => ?_
  split
  · exact tryThrow _
  · exact tryPure _
  · exact tryModify fun _ => rfl

theorem LineEdit.settle_acts (e : LineEdit) (r : Insertion) (P : Call → Prop) :
    Acts host P (e.settle (σ := σ) r).run :=
  (settle_looks host e r P).acts fun _ => id

theorem LineEdit.preview_acts (e : LineEdit) : Acts host e.MayCall (e.preview host).run :=
  ((preview_bare host e).mono fun _ => And.left).acts

theorem LineEdit.insert_bare {e : LineEdit} {path : String} (here : e.path = some path) :
    Bare host e.MayCall (e.insert host).run := by
  have looked : Bare host e.MayCall (readFile host path).run := (readFile_bare host here).mono fun _ => And.left
  unfold LineEdit.insert
  rw [here]
  refine tryBind looked fun content => ?_
  dsimp only
  split
  · exact tryBind (ofReply (call _ ⟨path, here, Or.inr ⟨_, rfl⟩⟩)) fun _ => tryPure _
  · exact tryPure _

theorem LineEdit.insert_acts (e : LineEdit) : Acts host e.MayCall (e.insert host).run := by
  cases here : e.path with
  | none =>
    unfold LineEdit.insert
    rw [here]
    let pass (x : Context) : Except Error Insertion × Context :=
      (.ok (x.env.insertAll e.bindings).2, { x with env := (x.env.insertAll e.bindings).1 })
    have steady (x : Context) : x.Steady (pass x).2 :=
      ⟨rfl, rfl, rfl, fun key value found => BindingTable.pass_keeps Environment.table_lawful e.bindings found⟩
    exact context pass steady
  | some path => exact (insert_bare host here).acts

theorem LineEdit.applyReplace_bare (e : LineEdit) (r : LineReplacement) :
    Bare host e.MayCall (e.applyReplace host r).run := by
  unfold LineEdit.applyReplace
  cases here : e.path with
  | none => exact tryThrow _
  | some path =>
    refine tryBind (tryExcept (parsePattern r.pattern)) fun p => ?_
    refine tryBind (ofReply (call _ ⟨path, here, Or.inl rfl⟩)) fun content => ?_
    split
    · exact tryPure _
    · exact tryBind (ofReply (call _ ⟨path, here, Or.inr ⟨_, rfl⟩⟩)) fun _ => tryPure _

theorem LineEdit.apply_acts (e : LineEdit) : Acts host e.MayCall (e.apply host).run := by
  unfold LineEdit.apply
  cases e.replace with
  | some r => exact (applyReplace_bare host e r).acts
  | none =>
    refine tryBind (preview_acts host e) fun previewed => ?_
    refine tryBind (settle_acts host e previewed _) fun _ => ?_
    refine tryBind (insert_acts host e) fun r => ?_
    split
    · exact tryPure _
    · exact tryPure _

def Rendering.MayCall (path template : String) (c : Call) : Prop :=
  (∃ context, c = .render template context) ∨ c = .read path ∨ ∃ contents, c = .write path contents

theorem Rendering.make_bare (path template : String) (context : Json) :
    Bare host (fun c => MayCall path template c ∧ c.OnlyLooks) (make host path template context).run := by
  refine tryBind (ofReply (call _ ⟨Or.inl ⟨context, rfl⟩, rfl, rfl⟩)) fun content => ?_
  exact tryBind (ofReply (call _ ⟨Or.inr (Or.inl rfl), rfl, rfl⟩)) fun _ => tryPure _

theorem Rendering.write_bare (r : Rendering) (template : String) :
    Bare host (MayCall r.path template) (r.write host).run := by
  unfold Rendering.write
  split
  · exact tryPure _
  · exact tryBind (ofReply (call _ (Or.inr (Or.inr ⟨_, rfl⟩)))) fun _ => tryPure _

theorem Rendering.write_acts (r : Rendering) (template : String) :
    Acts host (MayCall r.path template) (r.write host).run :=
  (r.write_bare host template).acts

theorem Rendering.make_eq_ok {path template : String} {context : Json} {w next : World σ} {r : Rendering} :
    w.run (make host path template context).run = (.ok r, next) ↔
      ∃ content existing, (host.answer (.render template context) w.machine).1 = .ok content ∧
        (host.answer (.read path) (w.after host (.render template context)).machine).1 = .ok existing ∧
        r = ⟨path, content, existing⟩ ∧ next = (w.after host (.render template context)).after host (.read path) := by
  constructor
  · intro made
    obtain ⟨content, next, rendered, rest⟩ := World.try_bind_eq_ok.mp made
    obtain ⟨text, (rfl : World.after host _ _ = _)⟩ := Prod.mk.inj (World.try_ofReply_eq_ok.mp rendered)
    obtain ⟨existing, next, looked, rest⟩ := World.try_bind_eq_ok.mp rest
    obtain ⟨read, (rfl : World.after host _ _ = _)⟩ := Prod.mk.inj (World.try_ofReply_eq_ok.mp looked)
    cases rest
    exact ⟨content, existing, text, read, rfl, rfl⟩
  · rintro ⟨content, existing, text, read, rfl, rfl⟩
    have rendered : w.run (Action.ofReply (perform host (.render template context))).run =
        (.ok content, w.after host (.render template context)) := World.try_ofReply_eq_ok.mpr (Prod.ext text rfl)
    have looked : World.run (w.after host (.render template context)) (Action.ofReply (perform host (.read path))).run =
        (.ok existing, (w.after host (.render template context)).after host (.read path)) :=
      World.try_ofReply_eq_ok.mpr (Prod.ext read rfl)
    exact World.try_bind_eq_ok.mpr ⟨_, _, rendered, World.try_bind_eq_ok.mpr ⟨_, _, looked, rfl⟩⟩

theorem Rendering.make_path {path template : String} {context : Json} {w next : World σ} {r : Rendering}
    (made : w.run (make host path template context).run = (.ok r, next)) : r.path = path := by
  obtain ⟨content, existing, -, -, rfl, -⟩ := (make_eq_ok host).mp made
  rfl

theorem Rendering.made {path template : String} {context : Json} {w next last : World σ} {r : Rendering}
    {change : Change} (made : w.run (make host path template context).run = (.ok r, next))
    (written : next.run (r.write host).run = (.ok change, last)) : Made host (MayCall path template) w last := by
  have looks : Acts host (MayCall path template) (make host path template context).run :=
    ((make_bare host path template context).mono fun _ => And.left).acts
  have writes := r.write_acts host template
  rw [make_path host made] at writes
  exact (looks.made made).trans (writes.made written)

def RenderedFile.MayCall (f : RenderedFile) : Call → Prop := Rendering.MayCall f.path f.source

theorem RenderedFile.apply_bare (f : RenderedFile) : Bare host f.MayCall (f.apply host).run := by
  have rendered : Bare host f.MayCall (f.render host).run :=
    tryBind tryContext fun _ => (Rendering.make_bare host _ _ _).mono fun _ => And.left
  refine tryBindOf (·.path = f.path) rendered ?_ ?_
  · intro w next r made
    obtain ⟨context, _, -, made⟩ := World.try_bind_eq_ok.mp made
    exact Rendering.make_path host made
  · intro r path
    have written := Rendering.write_bare host r f.source
    rw [path] at written
    exact written

def WorkingCopy.MayCall (w : WorkingCopy) (c : Call) : Prop :=
  c = .revision w.destination ∨ c = .checkout w.request

theorem WorkingCopy.apply_bare (w : WorkingCopy) : Bare host w.MayCall (w.apply host).run := by
  refine tryBind (ofReply (call _ (Or.inl rfl))) fun before => ?_
  split
  · exact tryPure _
  · refine tryBind (ofReply (call _ (Or.inr rfl))) fun after => ?_
    split
    · exact tryPure _
    · exact tryPure _

def ScheduledJob.MayCall (j : ScheduledJob) (name : String) (c : Call) : Prop :=
  c = .jobs j.user ∨ c = .installJob (j.entry name)

theorem ScheduledJob.apply_bare (j : ScheduledJob) (name : String) :
    Bare host (j.MayCall name) (j.apply host name).run := by
  refine tryBind (tryBind (ofReply (call _ (Or.inl rfl))) fun _ => tryPure _) fun found => ?_
  split
  · exact tryPure _
  · exact tryBind (ofReply (call _ (Or.inr rfl))) fun _ => tryPure _

theorem ScheduledJob.installed_eq_ok {j : ScheduledJob} {name : String} {w next : World σ} {found : Option Job} :
    w.run (j.installed host name).run = (.ok found, next) ↔
      ∃ jobs, (host.answer (.jobs j.user) w.machine).1 = .ok jobs ∧ found = jobs.find? (·.name == name) ∧
        next = w.after host (.jobs j.user) := by
  constructor
  · intro looked
    obtain ⟨jobs, next, listed, answered⟩ := World.try_bind_eq_ok.mp looked
    obtain ⟨read, (rfl : World.after host _ _ = _)⟩ := Prod.mk.inj (World.try_ofReply_eq_ok.mp listed)
    cases answered
    exact ⟨jobs, read, rfl, rfl⟩
  · rintro ⟨jobs, read, rfl, rfl⟩
    have listed : w.run (Action.ofReply (perform host (.jobs j.user))).run = (.ok jobs, w.after host (.jobs j.user)) :=
      World.try_ofReply_eq_ok.mpr (Prod.ext read rfl)
    exact World.try_bind_eq_ok.mpr ⟨_, _, listed, rfl⟩

def Site.MayLink (s : Site) (name : String) (c : Call) : Prop :=
  c = .symlink (s.configPath name) (s.linkPath name) ∨ c = .remove (s.linkPath name)

def Site.MayCall (s : Site) (name : String) (c : Call) : Prop :=
  Rendering.MayCall (s.configPath name) s.template c ∨ c = .readLink (s.linkPath name) ∨ s.MayLink name c

theorem Site.settleLink_bare (s : Site) (name : String) (state : LinkState) :
    Bare host (s.MayLink name) (s.settleLink host name state).run := by
  have linked : Bare host (s.MayLink name)
      (Action.ofReply (perform host (.symlink (s.configPath name) (s.linkPath name)))).run :=
    ofReply (call _ (Or.inl rfl))
  have removed : Bare host (s.MayLink name) (Action.ofReply (perform host (.remove (s.linkPath name)))).run :=
    ofReply (call _ (Or.inr rfl))
  unfold Site.settleLink
  dsimp only
  split
  · exact tryPure _
  · exact tryPure _
  · exact tryBind linked fun _ => tryPure _
  · exact tryBind removed fun _ => tryBind linked fun _ => tryPure _
  · exact tryBind removed fun _ => tryPure _

theorem Site.settleLink_acts (s : Site) (name : String) (state : LinkState) :
    Acts host (s.MayLink name) (s.settleLink host name state).run :=
  (s.settleLink_bare host name state).acts

theorem Site.render_bare (s : Site) (name : String) :
    Bare host (fun c => s.MayCall name c ∧ c.OnlyLooks) (s.render host name).run :=
  tryBind tryContext fun _ => (Rendering.make_bare host _ _ _).mono fun _ made => ⟨Or.inl made.1, made.2⟩

theorem Site.linkState_bare (s : Site) (name : String) :
    Bare host (fun c => s.MayCall name c ∧ c.OnlyLooks) (s.linkState host name).run := by
  refine tryBind (ofReply (call _ ⟨Or.inr (Or.inl rfl), rfl, rfl⟩)) fun found => ?_
  split <;> exact tryPure _

def Site.finish (s : Site) (name : String) (written : Change) : Action σ Change := do
  let linked ← s.settleLink host name (← s.linkState host name)
  let changes := (match written with
    | .converged detail => [detail]
    | .unchanged => []) ++ linked
  if changes.isEmpty then return .unchanged
  return .converged (Text.joinWith ", " changes)

theorem Site.apply_eq (s : Site) (name : String) :
    s.apply host name = (do s.finish host name (← (← s.render host name).write host)) := rfl

theorem Site.finish_bare (s : Site) (name : String) (written : Change) :
    Bare host (s.MayCall name) (s.finish host name written).run := by
  have looked : Bare host (s.MayCall name) (s.linkState host name).run :=
    (s.linkState_bare host name).mono fun _ => And.left
  refine tryBind looked fun state => ?_
  refine tryBind ((settleLink_bare host s name state).mono fun _ => Or.inr ∘ Or.inr) fun linked => ?_
  cases written with
  | unchanged =>
    dsimp only
    split <;> exact tryPure _
  | converged detail =>
    dsimp only
    split <;> exact tryPure _

theorem Site.finish_acts (s : Site) (name : String) (written : Change) :
    Acts host (s.MayCall name) (s.finish host name written).run :=
  (s.finish_bare host name written).acts

theorem Site.apply_bare (s : Site) (name : String) : Bare host (s.MayCall name) (s.apply host name).run := by
  have rendered : Bare host (s.MayCall name) (s.render host name).run :=
    (s.render_bare host name).mono fun _ => And.left
  rw [apply_eq]
  refine tryBindOf (·.path = s.configPath name) rendered ?_ ?_
  · intro w next r made
    obtain ⟨context, _, -, made⟩ := World.try_bind_eq_ok.mp made
    exact Rendering.make_path host made
  · intro r path
    have written := Rendering.write_bare host r s.template
    rw [path] at written
    exact tryBind (written.mono fun _ => Or.inl) fun written => finish_bare host s name written

theorem Site.apply_acts (s : Site) (name : String) : Acts host (s.MayCall name) (s.apply host name).run :=
  (s.apply_bare host name).acts

def Ownership.MayCall (o : Ownership) (c : Call) : Prop :=
  c = .owner o.path ∨ c = .chown o.path o.owner o.group o.recursive

theorem Ownership.apply_bare (o : Ownership) : Bare host o.MayCall (o.apply host).run :=
  tryBind (ofReply (call _ (Or.inr rfl))) fun _ => tryPure _

/-- The calls that the action of a resource of the name may make. -/
def Spec.MayCall (name : String) : Spec → Call → Prop
  | .package p => p.MayCall
  | .command k => k.MayCall
  | .lineEdit e => e.MayCall
  | .renderedFile f => f.MayCall
  | .workingCopy w => w.MayCall
  | .scheduledJob j => j.MayCall name
  | .site s => s.MayCall name
  | .ownership o => o.MayCall

def Spec.BindsNothing (spec : Spec) : Prop := ∀ e, spec = .lineEdit e → e.replace ≠ none

theorem Spec.apply_bare {spec : Spec} (bindsNothing : spec.BindsNothing) (name : String) :
    Bare host (spec.MayCall name) (spec.apply host name).run := by
  cases spec with
  | package p => exact p.apply_bare host
  | command k => exact k.apply_bare host
  | lineEdit e =>
    obtain ⟨r, replacing⟩ := Option.ne_none_iff_exists'.mp (bindsNothing e rfl)
    change Bare host e.MayCall (e.apply host).run
    unfold LineEdit.apply
    rw [replacing]
    exact e.applyReplace_bare host r
  | renderedFile f => exact f.apply_bare host
  | workingCopy w => exact w.apply_bare host
  | scheduledJob j => exact j.apply_bare host name
  | site s => exact s.apply_bare host name
  | ownership o => exact o.apply_bare host

theorem Spec.apply_acts (spec : Spec) (name : String) :
    Acts host (spec.MayCall name) (spec.apply host name).run := by
  by_cases bindsNothing : spec.BindsNothing
  · exact (spec.apply_bare host bindsNothing name).acts
  · cases spec with
    | lineEdit e => exact e.apply_acts host
    | _ => exact absurd (by rintro e ⟨⟩) bindsNothing

theorem Package.check_bare (p : Package) : Bare host (fun c => p.MayCall c ∧ c.OnlyLooks) (p.check host).run := by
  refine tryBind (ofReply (call _ ⟨Or.inl rfl, rfl, rfl⟩)) fun installed => ?_
  split
  · exact tryPure _
  · split <;> exact tryPure _

theorem Command.check_bare (k : Command) : Bare host (fun c => k.MayCall c ∧ c.OnlyLooks) (k.check host).run := by
  refine tryBind (k.alreadyCreated_bare host) fun created => ?_
  split <;> exact tryPure _

theorem LineEdit.checkReplace_bare (e : LineEdit) (r : LineReplacement) :
    Bare host (fun c => e.MayCall c ∧ c.OnlyLooks) (e.checkReplace host r).run := by
  unfold LineEdit.checkReplace
  cases here : e.path with
  | none => exact tryPure _
  | some path =>
    refine tryBind (tryExcept (parsePattern r.pattern)) fun p => tryBind (readFile_bare host here) fun content => ?_
    split <;> exact tryPure _

theorem LineEdit.check_looks (e : LineEdit) :
    Looks host (fun c => e.MayCall c ∧ c.OnlyLooks) (e.check host).run := by
  unfold LineEdit.check
  cases e.replace with
  | some r => exact (e.checkReplace_bare host r).looks
  | none =>
    refine tryBind (preview_bare host e).looks fun r => tryBind (settle_looks host e r _) fun _ => ?_
    split <;> exact tryPure _

theorem RenderedFile.check_bare (f : RenderedFile) :
    Bare host (fun c => f.MayCall c ∧ c.OnlyLooks) (f.check host).run :=
  tryBind (tryBind tryContext fun _ => Rendering.make_bare host _ _ _) fun _ => tryPure _

theorem WorkingCopy.check_bare (w : WorkingCopy) :
    Bare host (fun c => w.MayCall c ∧ c.OnlyLooks) (w.check host).run := by
  refine tryBind (ofReply (call _ ⟨Or.inl rfl, rfl, rfl⟩)) fun current => ?_
  split
  · exact tryPure _
  · split <;> exact tryPure _

theorem ScheduledJob.check_bare (j : ScheduledJob) (name : String) :
    Bare host (fun c => j.MayCall name c ∧ c.OnlyLooks) (j.check host name).run := by
  refine tryBind (tryBind (ofReply (call _ ⟨Or.inl rfl, rfl, rfl⟩)) fun _ => tryPure _) fun found => ?_
  split
  · split <;> exact tryPure _
  · exact tryPure _

theorem Site.check_bare (s : Site) (name : String) :
    Bare host (fun c => s.MayCall name c ∧ c.OnlyLooks) (s.check host name).run := by
  refine tryBind (s.render_bare host name) fun r => tryBind (s.linkState_bare host name) fun state => ?_
  cases r.drift with
  | inSync =>
    dsimp only
    split <;> exact tryPure _
  | drifted change =>
    dsimp only
    split <;> exact tryPure _

theorem Ownership.check_bare (o : Ownership) :
    Bare host (fun c => o.MayCall c ∧ c.OnlyLooks) (o.check host).run := by
  refine tryBind (ofReply (call _ ⟨Or.inl rfl, rfl, rfl⟩)) fun owner => ?_
  split
  · split <;> exact tryPure _
  · exact tryPure _

theorem Spec.check_bare {spec : Spec} (bindsNothing : spec.BindsNothing) (name : String) :
    Bare host (fun c => spec.MayCall name c ∧ c.OnlyLooks) (spec.check host name).run := by
  cases spec with
  | package p => exact p.check_bare host
  | command k => exact k.check_bare host
  | lineEdit e =>
    obtain ⟨r, replacing⟩ := Option.ne_none_iff_exists'.mp (bindsNothing e rfl)
    change Bare host (fun c => e.MayCall c ∧ c.OnlyLooks) (e.check host).run
    unfold LineEdit.check
    rw [replacing]
    exact e.checkReplace_bare host r
  | renderedFile f => exact f.check_bare host
  | workingCopy w => exact w.check_bare host
  | scheduledJob j => exact j.check_bare host name
  | site s => exact s.check_bare host name
  | ownership o => exact o.check_bare host

theorem Spec.check_looks (spec : Spec) (name : String) :
    Looks host (fun c => spec.MayCall name c ∧ c.OnlyLooks) (spec.check host name).run := by
  by_cases bindsNothing : spec.BindsNothing
  · exact (spec.check_bare host bindsNothing name).looks
  · cases spec with
    | lineEdit e => exact e.check_looks host
    | _ => exact absurd (by rintro e ⟨⟩) bindsNothing

theorem Spec.check_acts (spec : Spec) (name : String) :
    Acts host (fun c => spec.MayCall name c ∧ c.OnlyLooks) (spec.check host name).run :=
  (spec.check_looks host name).acts fun _ => id

def Check.MayCall : Check → Call → Prop
  | .command line user cwd, c => ∃ env, c = .run line user cwd env
  | .fileExists path, c => c = .pathExists path
  | .ownedBy path _, c => c = .owner path
  | .fileContains path _, c => c = .read path

theorem Check.evaluate_acts (check : Check) : Acts host check.MayCall (check.evaluate host).run := by
  cases check with
  | command line user cwd =>
    exact tryBind (Composed.ask (Composed.command _ _ _ _ fun env => ⟨env, rfl⟩) _) fun _ => tryPure _
  | fileExists path => exact lift (call _ rfl)
  | ownedBy path owner =>
    have looked : Acts host (Check.ownedBy path owner).MayCall (perform host (.owner path)) := call _ rfl
    exact tryBind (Composed.ask looked _) fun _ => tryPure _
  | fileContains path pattern =>
    simp only [Check.evaluate]
    cases Pattern.parse pattern with
    | error m => exact tryThrow _
    | ok p =>
      have looked : Acts host (Check.fileContains path pattern).MayCall (perform host (.read path)) := call _ rfl
      exact tryBind (Composed.ask looked _) fun _ => tryPure _

theorem Guard.evaluateEach_acts (guards : List Guard) :
    Acts host (fun c => ∃ g ∈ guards, g.check.MayCall c) (evaluateEach host guards) := by
  induction guards with
  | nil => exact pure _
  | cons g rest ih =>
    refine andThen ((g.check.evaluate_acts host).mono fun c made => ⟨g, List.mem_cons_self, made⟩) fun result => ?_
    refine andThen (ih.mono ?_) fun more => pure _
    rintro c ⟨g, member, made⟩
    exact ⟨g, List.mem_cons_of_mem _ member, made⟩

def Resource.MayCall (r : Resource) (c : Call) : Prop :=
  (∃ g ∈ r.allGuards, g.check.MayCall c) ∨ r.spec.MayCall r.name c

end Provision
