import Provision.Proofs.Faithfulness
import Provision.Proofs.MachineHost

namespace Provision

theorem Call.touches_of_look {c : Call} (looks : c.mutates = false) (t : Target) : c.touches t = false := by
  cases c with
  | write | chown | symlink | remove | checkout | installJob | install => cases looks
  | _ => rfl

instance decidableEqExcept {ε α : Type} [DecidableEq ε] [DecidableEq α] : DecidableEq (Except ε α)
  | .ok a, .ok b => decidable_of_iff (a = b) ⟨congrArg Except.ok, Except.ok.inj⟩
  | .error e, .error f => decidable_of_iff (e = f) ⟨congrArg Except.error, Except.error.inj⟩
  | .ok _, .error _ | .error _, .ok _ => isFalse nofun

namespace Machine

structure SameSetup (m n : Machine) : Prop where
  failures : n.failures = m.failures
  resolve : n.resolve = m.resolve
  renderer : n.renderer = m.renderer

theorem SameSetup.trans {m n o : Machine} (first : SameSetup m n) (second : SameSetup n o) : SameSetup m o where
  failures := second.failures.trans first.failures
  resolve := second.resolve.trans first.resolve
  renderer := second.renderer.trans first.renderer

theorem attempt_sameSetup {α : Type} {m : Machine} {call : String} {act : Machine → Except Fault α × Machine}
    (same : SameSetup m (act m).2) : SameSetup m (m.attempt call act).2 := by
  unfold attempt
  split
  · exact ⟨rfl, rfl, rfl⟩
  · exact same

theorem answer_sameSetup (c : Call) (m : Machine) : SameSetup m (answer c m).2 := by
  cases c with
  | pathExists path => exact ⟨rfl, rfl, rfl⟩
  | chown path owner group recursive =>
    apply attempt_sameSetup
    split <;> exact ⟨rfl, rfl, rfl⟩
  | symlink source link =>
    apply attempt_sameSetup
    split <;> exact ⟨rfl, rfl, rfl⟩
  | remove path =>
    apply attempt_sameSetup
    split
    · exact ⟨rfl, rfl, rfl⟩
    · split <;> exact ⟨rfl, rfl, rfl⟩
  | _ => exact attempt_sameSetup ⟨rfl, rfl, rfl⟩

theorem leads_sameSetup (m : Machine) (calls : List Call) : SameSetup m (host.leads m calls) := by
  induction calls generalizing m with
  | nil => exact ⟨rfl, rfl, rfl⟩
  | cons c rest ih => exact (answer_sameSetup c m).trans (ih _)

theorem SameSetup.render {m n : Machine} (same : SameSetup m n) (template : String) (context : Json) :
    (answer (.render template context) n).1 = (answer (.render template context) m).1 := by
  simp only [answer, attempt, same.failures, same.renderer]
  split <;> rfl

theorem SameSetup.checkout {m n : Machine} (same : SameSetup m n) (request : CheckoutRequest) :
    (answer (.checkout request) n).1 = (answer (.checkout request) m).1 := by
  simp only [answer, attempt, same.failures, same.resolve]
  split <;> rfl

instance (m n : Machine) (t : Target) : Decidable (host.Keeps m n t) :=
  match t with
  | .file p => inferInstanceAs (Decidable ((answer (.read p) n).1 = (answer (.read p) m).1))
  | .link p => inferInstanceAs (Decidable ((answer (.readLink p) n).1 = (answer (.readLink p) m).1))
  | .owner p _ => inferInstanceAs (Decidable ((answer (.owner p) n).1 = (answer (.owner p) m).1))
  | .package a => inferInstanceAs (Decidable ((answer (.installedVersion a) n).1 = (answer (.installedVersion a) m).1))
  | .workingCopy p => inferInstanceAs (Decidable ((answer (.revision p) n).1 = (answer (.revision p) m).1))
  | .job user name => inferInstanceAs (Decidable ((answer (.jobs user) n).1.map (·.find? (·.name == name)) =
      (answer (.jobs user) m).1.map (·.find? (·.name == name))))

/-- Whether the call keeps the targets that it is not meant to change. -/
def sparesOthers (targets : List Target) (m : Machine) (c : Call) : Bool :=
  !c.mutates && !c.isRun || targets.all fun t => c.touches t || decide (host.Keeps m (answer c m).2 t)

def isSeen (targets : List Target) (m : Machine) (c : Call) : Bool :=
  let next := (answer c m).2
  match c with
  | .write path contents => decide ((answer (.write path contents) m).1 = .ok () →
      (answer (.read path) next).1 = .ok (some contents))
  | .chown path owner group recursive => decide ((answer (.chown path owner group recursive) m).1 = .ok () →
      (answer (.owner path) next).1 = .ok (some owner))
  | .symlink source link => decide ((answer (.symlink source link) m).1 = .ok () →
      (answer (.readLink link) next).1 = .ok (some source))
  | .remove path => decide ((answer (.remove path) m).1 = .ok () → (answer (.readLink path) next).1 = .ok none)
  | .install package version => decide ((answer (.install package version) m).1 = .ok () →
      ∃ installed ∈ (answer (.installedVersion package) next).1.toOption,
        (Package.mk package version).satisfiedBy installed = true)
  | .checkout request =>
    decide (∀ t ∈ targets, t ≠ .workingCopy request.destination → host.Keeps m next t) &&
      match (answer (.checkout request) m).1 with
      | .ok revision => decide ((answer (.revision request.destination) next).1 = .ok (some revision))
      | .error _ => true
  | .installJob job => decide ((answer (.installJob job) m).1 = .ok () →
      (answer (.jobs job.user) next).1.map (·.find? (·.name == job.name)) = .ok (some job))
  | _ => true

def areSpelledOnce (targets : List Target) : Bool :=
  targets.all fun t => targets.all fun u =>
    match t, u with
    | .file p, .file q => p == q || !Path.same p q
    | _, _ => true

def isFaithful (targets : List Target) : Machine → List Call → Bool
  | _, [] => true
  | m, c :: rest => sparesOthers targets m c && isSeen targets m c && isFaithful targets (answer c m).2 rest

section

variable {targets : List Target} {m : Machine} {calls before : List Call} {c : Call}

theorem keeps_of_sparesOthers {t : Target} (spared : sparesOthers targets m c = true) (listed : t ∈ targets)
    (untouched : c.touches t = false) : host.Keeps m (answer c m).2 t := by
  rcases (Bool.or_eq_true _ _).mp spared with looks | kept
  · simp only [Bool.and_eq_true, Bool.not_eq_true'] at looks
    rw [answer_look looks.1 looks.2]
    exact .refl host m t
  · have kept := List.all_eq_true.mp kept t listed
    rw [untouched, Bool.false_or] at kept
    exact of_decide_eq_true kept

theorem eq_of_areSpelledOnce {p q : String} (once : areSpelledOnce targets = true) (listedP : .file p ∈ targets)
    (listedQ : .file q ∈ targets) (same : Path.same p q = true) : p = q := by
  have pair := List.all_eq_true.mp (List.all_eq_true.mp once _ listedP) _ listedQ
  simp only [same, Bool.not_true, Bool.or_false] at pair
  exact eq_of_beq pair

theorem isFaithful_call (tested : isFaithful targets m calls = true) (starts : before ++ [c] <+: calls) :
    sparesOthers targets (host.leads m before) c = true ∧ isSeen targets (host.leads m before) c = true := by
  induction before generalizing m calls with
  | nil =>
    obtain ⟨rest, rfl⟩ := starts
    simp only [List.nil_append, List.singleton_append, isFaithful, Bool.and_eq_true] at tested
    exact tested.1
  | cons d before ih =>
    obtain ⟨rest, rfl⟩ := starts
    rw [List.cons_append, List.cons_append, isFaithful, Bool.and_eq_true] at tested
    exact ih tested.2 (List.prefix_append _ _)

theorem satisfied_of_isSeen {package : String} {version : Option String}
    (seen : isSeen targets m (.install package version) = true)
    (ok : (answer (.install package version) m).1 = .ok ()) :
    ∃ installed, (answer (.installedVersion package) (answer (.install package version) m).2).1 = .ok installed ∧
      (Package.mk package version).satisfiedBy installed = true := by
  obtain ⟨installed, found, fits⟩ := of_decide_eq_true seen ok
  refine ⟨installed, ?_, fits⟩
  cases asked : (answer (.installedVersion package) (answer (.install package version) m).2).1 with
  | error fault =>
    rw [asked] at found
    cases found
  | ok answered =>
    rw [asked] at found
    cases found
    rfl

theorem revision_of_isSeen {request : CheckoutRequest} {revision : String}
    (seen : isSeen targets m (.checkout request) = true) (ok : (answer (.checkout request) m).1 = .ok revision) :
    (answer (.revision request.destination) (answer (.checkout request) m).2).1 = .ok (some revision) := by
  simp only [isSeen, ok, Bool.and_eq_true] at seen
  exact of_decide_eq_true seen.2

theorem keeps_of_isSeen {request : CheckoutRequest} {t : Target} (seen : isSeen targets m (.checkout request) = true)
    (listed : t ∈ targets) (other : t ≠ .workingCopy request.destination) :
    host.Keeps m (answer (.checkout request) m).2 t := by
  simp only [isSeen, Bool.and_eq_true] at seen
  exact of_decide_eq_true seen.1 t listed other

end

section

variable {rs : List Resource} {start final : World Machine}

theorem sameSetup_of_meets {earlier between : List Call} {m : Machine} {c d : Call}
    (meets : Meets host start final (earlier ++ d :: between) m c) :
    SameSetup (host.leads start.machine earlier) m := by
  rw [meets.state, Host.leads_append]
  exact leads_sameSetup _ _

theorem tested_of_meets {targets : List Target} {calls before : List Call} {m : Machine} {c : Call}
    (log : final.calls = start.calls ++ calls) (tested : isFaithful targets start.machine calls = true)
    (meets : Meets host start final before m c) : sparesOthers targets m c = true ∧ isSeen targets m c = true := by
  have ends := meets.log
  rw [log, List.append_assoc, List.prefix_append_right_inj] at ends
  rw [meets.state]
  exact isFaithful_call tested ends

/-- A machine that passes the test is faithful. -/
theorem faithful_of_isFaithful {calls : List Call} (log : final.calls = start.calls ++ calls)
    (once : areSpelledOnce (rs.flatMap Resource.targets) = true)
    (tested : isFaithful (rs.flatMap Resource.targets) start.machine calls = true) :
    Faithful host rs start final := by
  have listed : ∀ {t}, Managed rs t → t ∈ rs.flatMap Resource.targets := List.mem_flatMap.mpr
  have passed : ∀ {before m c}, Meets host start final before m c → _ := tested_of_meets log tested
  have spared : ∀ {before m c}, Meets host start final before m c → ∀ t, Managed rs t → c.touches t = false →
      host.Keeps m (host.answer c m).2 t :=
    fun meets t managed untouched => keeps_of_sparesOthers (passed meets).1 (listed managed) untouched
  -- Each clause on one call is the test of that call; two calls meet the same setup.
  constructor
  case harmless =>
    intro before m c meets looks t managed
    exact spared meets t managed (Call.touches_of_look looks t)
  case elsewhere =>
    intro pre r post order before m c meets allowed q member t managed untouched
    refine spared meets t ⟨q, ?_, managed⟩ untouched
    rw [order, ← List.singleton_append, ← List.append_assoc]
    exact List.mem_append_left _ member
  case spelling =>
    intro before ends p q managedP managedQ same
    rw [eq_of_areSpelledOnce once (listed managedP) (listed managedQ) same]
  case write =>
    intro before m path contents meets
    exact of_decide_eq_true (passed meets).2
  case chown =>
    intro before m path owner group recursive meets
    exact of_decide_eq_true (passed meets).2
  case symlink =>
    intro before m source link meets
    exact of_decide_eq_true (passed meets).2
  case remove =>
    intro before m path meets
    exact of_decide_eq_true (passed meets).2
  case install =>
    intro before m package version meets
    exact satisfied_of_isSeen (passed meets).2
  case checkout =>
    intro before m request revision meets
    exact revision_of_isSeen (passed meets).2
  case installJob =>
    intro before m job meets
    exact of_decide_eq_true (passed meets).2
  case checkoutAgain =>
    intro earlier between m request revision meets ok
    refine ⟨((sameSetup_of_meets meets).checkout request).trans ok, fun t managed other => ?_⟩
    exact keeps_of_isSeen (passed meets).2 (listed managed) other
  case renderAgain =>
    intro earlier between m template context meets
    exact (sameSetup_of_meets meets).render template context

end

end Machine

end Provision
