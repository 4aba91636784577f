import Provision.Path
import Provision.Proofs.ResourceCalls

namespace Provision

variable {σ : Type}

def Path.isWithin (root path : String) : Bool :=
  (components root).1 == (components path).1 && (components root).2.isPrefixOf (components path).2

/-- A thing that a resource manages. -/
inductive Target where
  | file (path : String)
  | link (path : String)
  | owner (path : String) (recursive : Bool)
  | package (name : String)
  | workingCopy (destination : String)
  | job (user name : String)
deriving DecidableEq, Repr

/-- Whether bringing about the first target may undo the second. -/
def Target.overlaps : Target → Target → Bool
  | .file p, .file q | .file p, .link q | .link p, .file q | .link p, .link q | .link p, .owner q _ => Path.same p q
  | .owner p recursive, .owner q _ => Path.same p q || recursive && Path.isWithin p q
  | .package a, .package b => a == b
  | .workingCopy p, .workingCopy q => Path.same p q
  | .job u a, .job v b => u == v && a == b
  | _, _ => false

/-- What a call is meant to change. A write leaves the owner of a file as it is. -/
def Call.subject? : Call → Option Target
  | .write path _ => some (.file path)
  | .symlink _ path | .remove path => some (.link path)
  | .chown path _ _ recursive => some (.owner path recursive)
  | .install package _ => some (.package package)
  | .checkout request => some (.workingCopy request.destination)
  | .installJob job => some (.job job.user job.name)
  | _ => none

def Call.touches (c : Call) (t : Target) : Bool := c.subject?.any (·.overlaps t)

/-- What a state tells about the target is what another told. -/
def Host.Keeps (host : Host σ) (m n : σ) : Target → Prop
  | .file p => (host.answer (.read p) n).1 = (host.answer (.read p) m).1
  | .link p => (host.answer (.readLink p) n).1 = (host.answer (.readLink p) m).1
  | .owner p _ => (host.answer (.owner p) n).1 = (host.answer (.owner p) m).1
  | .package a => (host.answer (.installedVersion a) n).1 = (host.answer (.installedVersion a) m).1
  | .workingCopy p => (host.answer (.revision p) n).1 = (host.answer (.revision p) m).1
  | .job user name => (host.answer (.jobs user) n).1.map (·.find? (·.name == name)) =
      (host.answer (.jobs user) m).1.map (·.find? (·.name == name))

theorem Host.Keeps.refl (host : Host σ) (m : σ) (t : Target) : host.Keeps m m t := by
  cases t <;> rfl

theorem Host.Keeps.trans {host : Host σ} {m n o : σ} {t : Target} (first : host.Keeps m n t)
    (second : host.Keeps n o t) : host.Keeps m o t := by
  cases t <;> exact Eq.trans second first

def Spec.targets (name : String) : Spec → List Target
  | .package p => [.package p.package]
  | .command _ => []
  | .lineEdit e => e.path.toList.map .file
  | .renderedFile f => [.file f.path]
  | .workingCopy w => [.workingCopy w.destination]
  | .scheduledJob j => [.job j.user name]
  | .site s => [.file (s.configPath name), .link (s.linkPath name)]
  | .ownership o => [.owner o.path o.recursive]

def Resource.targets (r : Resource) : List Target := r.spec.targets r.name

def Managed (rs : List Resource) (t : Target) : Prop := ∃ r ∈ rs, t ∈ r.targets

theorem LineEdit.mem_targets {e : LineEdit} {name : String} {t : Target} :
    t ∈ Spec.targets name (.lineEdit e) ↔ ∃ path, e.path = some path ∧ t = .file path := by
  cases here : e.path with
  | none => simp [Spec.targets, here]
  | some path => simp [Spec.targets, here]

theorem Rendering.subject {path template : String} {c : Call} {u : Target} (mayCall : MayCall path template c)
    (subject : c.subject? = some u) : u = .file path := by
  rcases mayCall with ⟨context, rfl⟩ | rfl | ⟨contents, rfl⟩
  · cases subject
  · cases subject
  · cases subject
    rfl

theorem Site.subject {s : Site} {name : String} {c : Call} {u : Target} (mayCall : s.MayCall name c)
    (subject : c.subject? = some u) : u = .file (s.configPath name) ∨ u = .link (s.linkPath name) := by
  rcases mayCall with rendering | rfl | rfl | rfl
  · exact Or.inl (Rendering.subject rendering subject)
  · cases subject
  · cases subject
    exact Or.inr rfl
  · cases subject
    exact Or.inr rfl

theorem Site.MayLink.touches_file {s : Site} {name path : String} {c : Call} (links : s.MayLink name c) :
    c.touches (.file path) = Path.same (s.linkPath name) path := by
  rcases links with rfl | rfl
  · simp only [Call.touches, Call.subject?, Option.any_some, Target.overlaps]
  · simp only [Call.touches, Call.subject?, Option.any_some, Target.overlaps]

theorem Spec.subject {spec : Spec} {name : String} {c : Call} {u : Target} (mayCall : spec.MayCall name c)
    (subject : c.subject? = some u) : u ∈ spec.targets name := by
  cases spec with
  | command k =>
    rcases mayCall with ⟨path, -, rfl⟩ | ⟨env, rfl⟩
    · cases subject
    · cases subject
  | lineEdit e =>
    obtain ⟨path, here, rfl | ⟨contents, rfl⟩⟩ := mayCall
    · cases subject
    · cases subject
      simp [targets, here]
  | renderedFile f => exact List.mem_singleton.mpr (Rendering.subject mayCall subject)
  | site s =>
    rcases Site.subject mayCall subject with rfl | rfl
    · exact List.mem_cons_self
    · exact List.mem_cons_of_mem _ List.mem_cons_self
  | package | workingCopy | scheduledJob | ownership =>
    rcases mayCall with rfl | rfl
    · cases subject
    · cases subject
      exact List.mem_cons_self

theorem Spec.touches {spec : Spec} {name : String} {c : Call} {t : Target} (mayCall : spec.MayCall name c)
    (touches : c.touches t = true) : ∃ u ∈ spec.targets name, u.overlaps t = true := by
  obtain ⟨u, subject, overlaps⟩ := (Option.any_eq_true _ _).mp touches
  exact ⟨u, Spec.subject mayCall subject, overlaps⟩

theorem Check.subject {check : Check} {c : Call} (mayCall : check.MayCall c) : c.subject? = none := by
  cases check with
  | command line user cwd =>
    obtain ⟨env, rfl⟩ := mayCall
    rfl
  | fileExists | ownedBy | fileContains =>
    cases mayCall
    rfl

theorem Resource.touches {r : Resource} {c : Call} {t : Target} (mayCall : r.MayCall c)
    (touches : c.touches t = true) : ∃ u ∈ r.targets, u.overlaps t = true := by
  rcases mayCall with ⟨g, -, checked⟩ | acted
  · rw [Call.touches, Check.subject checked] at touches
    cases touches
  · exact Spec.touches acted touches

end Provision
