import Provision.Proofs.Lines
import Provision.Proofs.Targets

namespace Provision

variable {σ : Type}

/-- A call between two worlds, the calls before it and the state that it meets. -/
structure Meets (host : Host σ) (start final : World σ) (before : List Call) (m : σ) (c : Call) : Prop where
  log : start.calls ++ before ++ [c] <+: final.calls
  state : m = host.leads start.machine before

/-- The collaborators are faithful to the resources in what was called between two worlds. -/
structure Faithful (host : Host σ) (rs : List Resource) (start final : World σ) : Prop where
  /-- Looking, and the commands of notifications, leave alone what is managed. -/
  harmless : ∀ before m c, Meets host start final before m c → c.mutates = false →
    ∀ t, Managed rs t → host.Keeps m (host.answer c m).2 t
  /-- What is done for a resource leaves alone what it does not touch of its own and of what is managed
  before it. -/
  elsewhere : ∀ pre r post, rs = pre ++ r :: post → ∀ before m c, Meets host start final before m c →
    r.MayCall c → ∀ q ∈ pre ++ [r], ∀ t ∈ q.targets, c.touches t = false → host.Keeps m (host.answer c m).2 t
  write : ∀ before m path contents, Meets host start final before m (.write path contents) →
    (host.answer (.write path contents) m).1 = .ok () →
    (host.answer (.read path) (host.answer (.write path contents) m).2).1 = .ok (some contents)
  spelling : ∀ before, start.calls ++ before <+: final.calls → ∀ p q, Managed rs (.file p) →
    Managed rs (.file q) → Path.same p q = true →
    (host.answer (.read p) (host.leads start.machine before)).1 =
      (host.answer (.read q) (host.leads start.machine before)).1
  chown : ∀ before m path owner group recursive,
    Meets host start final before m (.chown path owner group recursive) →
    (host.answer (.chown path owner group recursive) m).1 = .ok () →
    (host.answer (.owner path) (host.answer (.chown path owner group recursive) m).2).1 = .ok (some owner)
  symlink : ∀ before m source link, Meets host start final before m (.symlink source link) →
    (host.answer (.symlink source link) m).1 = .ok () →
    (host.answer (.readLink link) (host.answer (.symlink source link) m).2).1 = .ok (some source)
  remove : ∀ before m path, Meets host start final before m (.remove path) →
    (host.answer (.remove path) m).1 = .ok () →
    (host.answer (.readLink path) (host.answer (.remove path) m).2).1 = .ok none
  install : ∀ before m package version, Meets host start final before m (.install package version) →
    (host.answer (.install package version) m).1 = .ok () →
    ∃ installed, (host.answer (.installedVersion package) (host.answer (.install package version) m).2).1 =
      .ok installed ∧ (Package.mk package version).satisfiedBy installed = true
  checkout : ∀ before m request revision, Meets host start final before m (.checkout request) →
    (host.answer (.checkout request) m).1 = .ok revision →
    (host.answer (.revision request.destination) (host.answer (.checkout request) m).2).1 = .ok (some revision)
  /-- A repeated checkout comes to the same revision and touches nothing else that is managed. -/
  checkoutAgain : ∀ earlier between m request revision,
    Meets host start final (earlier ++ .checkout request :: between) m (.checkout request) →
    (host.answer (.checkout request) (host.leads start.machine earlier)).1 = .ok revision →
    (host.answer (.checkout request) m).1 = .ok revision ∧ ∀ t, Managed rs t →
      t ≠ .workingCopy request.destination → host.Keeps m (host.answer (.checkout request) m).2 t
  installJob : ∀ before m job, Meets host start final before m (.installJob job) →
    (host.answer (.installJob job) m).1 = .ok () →
    ((host.answer (.jobs job.user) (host.answer (.installJob job) m).2).1.map (·.find? (·.name == job.name))) =
      .ok (some job)
  renderAgain : ∀ earlier between m template context,
    Meets host start final (earlier ++ .render template context :: between) m (.render template context) →
    (host.answer (.render template context) m).1 =
      (host.answer (.render template context) (host.leads start.machine earlier)).1

def Spec.bindings : Spec → List Binding
  | .lineEdit e => e.bindings
  | _ => []

def Spec.replacement? : Spec → Option LineReplacement
  | .lineEdit e => e.replace
  | _ => none

/-- Whether a resource only inserts lines into a file, or variables into the environment. -/
def Resource.insertsOnly (r : Resource) : Bool :=
  match r.spec with
  | .lineEdit e => e.replace.isNone
  | _ => false

theorem Resource.edit_of_insertsOnly {r : Resource} (inserts : r.insertsOnly = true) :
    ∃ e, r.spec = .lineEdit e ∧ e.replace = none := by
  unfold insertsOnly at inserts
  cases spec : r.spec with
  | lineEdit e =>
    rw [spec] at inserts
    exact ⟨e, rfl, Option.isNone_iff_eq_none.mp inserts⟩
  | _ =>
    rw [spec] at inserts
    cases inserts

/-- A run list that a second run can leave alone: no commands, no declared guards, no line breaks in
lines, and no resource that manages what an earlier one does. -/
structure Repeatable (rs : List Resource) : Prop where
  noCommand : ∀ r ∈ rs, r.kind ≠ .command
  noGuards : ∀ r ∈ rs, r.guards = []
  lines : ∀ r ∈ rs, ∀ b ∈ r.spec.bindings, b.Single
  replacements : ∀ r ∈ rs, ∀ x ∈ r.spec.replacement?, SingleLine x.replacement
  apart : rs.Pairwise fun q r => q.insertsOnly = true ∧ r.insertsOnly = true ∨
    ∀ u ∈ r.targets, ∀ t ∈ q.targets, u.overlaps t = false

def Resource.TargetsApart (r : Resource) : Prop := r.targets.Pairwise fun t u => u.overlaps t = false

instance (r : Resource) : Decidable r.TargetsApart :=
  inferInstanceAs (Decidable (r.targets.Pairwise fun t u => u.overlaps t = false))

structure Passes (host : Host σ) (start final w : World σ) : Prop where
  since : ∃ before, w.calls = start.calls ++ before ∧ w.machine = host.leads start.machine before
  ends : w.calls <+: final.calls

def Told (host : Host σ) (start w : World σ) (c : Call) (reply : c.Reply) : Prop :=
  ∃ earlier later, w.calls = start.calls ++ (earlier ++ c :: later) ∧
    (host.answer c (host.leads start.machine earlier)).1 = reply

section

variable {host : Host σ} {P : Call → Prop} {start final w next : World σ} {c : Call}

theorem Passes.meets (passes : Passes host start final w) (ends : (w.after host c).calls <+: final.calls) :
    ∃ before, w.calls = start.calls ++ before ∧ Meets host start final before w.machine c := by
  obtain ⟨before, log, machine⟩ := passes.since
  refine ⟨before, log, ?_, machine⟩
  rw [← log]
  exact ends

theorem Passes.made (passes : Passes host start final w) (made : Made host P w next)
    (ends : next.calls <+: final.calls) : Passes host start final next := by
  obtain ⟨before, log, machine⟩ := passes.since
  obtain ⟨calls, more, moved, -⟩ := made.calls
  refine ⟨⟨before ++ calls, ?_, ?_⟩, ends⟩
  · rw [more, log, List.append_assoc]
  · rw [moved, machine, Host.leads_append]

theorem Made.after (allowed : P c) : Made host P w (w.after host c) :=
  Acts.makes (.call c allowed) w

theorem Passes.after (passes : Passes host start final w) (ends : (w.after host c).calls <+: final.calls) :
    Passes host start final (w.after host c) :=
  passes.made (Made.after (P := fun _ => True) trivial) ends

theorem World.grows_after (host : Host σ) (w : World σ) (c : Call) : w.calls <+: (w.after host c).calls :=
  List.prefix_append _ _

theorem Passes.midway {d : Call} (passes : Passes host start final w)
    (ends : ((w.after host c).after host d).calls <+: final.calls) : Passes host start final (w.after host c) :=
  passes.after ((World.grows_after host _ d).trans ends)

theorem Made.grows (made : Made host P w next) : w.calls <+: next.calls := by
  obtain ⟨calls, more, -⟩ := made.calls
  exact ⟨calls, more.symm⟩

theorem Passes.keeps {t : Target} (passes : Passes host start final w) (made : Made host P w next)
    (ends : next.calls <+: final.calls)
    (each : ∀ before m c, Meets host start final before m c → P c → host.Keeps m (host.answer c m).2 t) :
    host.Keeps w.machine next.machine t := by
  obtain ⟨calls, more, moved, allowed⟩ := made.calls
  rw [moved]
  rw [more] at ends
  clear made moved more
  induction calls generalizing w with
  | nil => exact .refl host _ t
  | cons c rest ih =>
    have first : (w.after host c).calls <+: final.calls := by
      refine List.IsPrefix.trans ⟨rest, ?_⟩ ends
      rw [World.after_calls, List.append_assoc, List.singleton_append]
    obtain ⟨before, -, meets⟩ := passes.meets first
    have here := each before _ c meets (allowed c List.mem_cons_self)
    refine here.trans (ih (passes.after first) ?_ fun c member => allowed c (List.mem_cons_of_mem _ member))
    rwa [World.after_calls, List.append_assoc, List.singleton_append]

theorem Told.here {reply : c.Reply} (passes : Passes host start final w) (answered : (host.answer c w.machine).1 = reply) :
    Told host start (w.after host c) c reply := by
  obtain ⟨before, log, machine⟩ := passes.since
  refine ⟨before, [], ?_, by rw [← machine, answered]⟩
  rw [World.after_calls, log, List.append_assoc]

theorem Told.grows {reply : c.Reply} (told : Told host start w c reply) (longer : w.calls <+: next.calls) :
    Told host start next c reply := by
  obtain ⟨earlier, later, log, answered⟩ := told
  obtain ⟨more, extended⟩ := longer
  refine ⟨earlier, later ++ more, ?_, answered⟩
  rw [← extended, log, List.append_assoc, List.append_assoc, List.cons_append]

theorem Told.after {reply : c.Reply} {d : Call} (told : Told host start w c reply) :
    Told host start (w.after host d) c reply :=
  told.grows (w.grows_after host d)

theorem Told.again {reply : c.Reply} (told : Told host start w c reply) (passes : Passes host start final w)
    (ends : (w.after host c).calls <+: final.calls) :
    ∃ earlier between, Meets host start final (earlier ++ c :: between) w.machine c ∧
      (host.answer c (host.leads start.machine earlier)).1 = reply := by
  obtain ⟨earlier, between, log, answered⟩ := told
  obtain ⟨before, sameLog, meets⟩ := passes.meets ends
  rw [log, List.append_cancel_left_eq] at sameLog
  subst sameLog
  exact ⟨earlier, between, meets, answered⟩

end

section

variable {host : Host σ} {P : Call → Prop} {rs : List Resource} {start final w next : World σ}

theorem Faithful.looked (faithful : Faithful host rs start final) (passes : Passes host start final w)
    (made : Made host (fun c => c.mutates = false) w next) (ends : next.calls <+: final.calls) {t : Target}
    (managed : Managed rs t) : host.Keeps w.machine next.machine t :=
  passes.keeps made ends fun before m c meets quiet => faithful.harmless before m c meets quiet t managed

theorem Faithful.spelled (faithful : Faithful host rs start final) (passes : Passes host start final w) {p q : String}
    (managedP : Managed rs (.file p)) (managedQ : Managed rs (.file q)) (same : Path.same p q = true) :
    (host.answer (.read p) w.machine).1 = (host.answer (.read q) w.machine).1 := by
  obtain ⟨before, log, machine⟩ := passes.since
  rw [machine]
  refine faithful.spelling before ?_ p q managedP managedQ same
  rw [← log]
  exact passes.ends

theorem Faithful.apart (faithful : Faithful host rs start final) (passes : Passes host start final w)
    {pre post : List Resource} {r q : Resource} (order : rs = pre ++ r :: post) (member : q ∈ pre ++ [r])
    (made : Made host r.MayCall w next) (ends : next.calls <+: final.calls) {t : Target} (managed : t ∈ q.targets)
    (untouched : ∀ c, r.MayCall c → c.touches t = false) : host.Keeps w.machine next.machine t :=
  passes.keeps made ends fun before m c meets allowed =>
    faithful.elsewhere pre r post order before m c meets allowed q member t managed (untouched c allowed)

end

end Provision
