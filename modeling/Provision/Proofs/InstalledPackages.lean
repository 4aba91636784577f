import Provision.Proofs.MachineHost
import Provision.Proofs.Settled

namespace Provision

variable {σ : Type}

namespace Package

section

variable {host : Host σ} {p : Package} {m : σ} {w last later : World σ} {found installed : Option String}
  {detail : String}

def Fits (p : Package) (listed : Option String) : Prop :=
  ∃ version, listed = some version ∧ ∀ pinned, p.version = some pinned → version = pinned

theorem satisfiedBy_iff : p.satisfiedBy installed = true ↔ p.Fits installed := by
  unfold Fits
  cases installed with
  | none => simp [satisfiedBy]
  | some version => cases pinned : p.version <;> simp [satisfiedBy, pinned]

theorem check_of_read (read : (host.answer (.installedVersion p.package) w.machine).1 = .ok installed) :
    ∃ drift, w.run (p.check host).run = (.ok drift, w.after host (.installedVersion p.package)) ∧
      (drift = .inSync ↔ p.satisfiedBy installed = true) := by
  unfold check
  rw [World.try_bind, run_look read]
  dsimp only
  by_cases satisfied : p.satisfiedBy installed = true
  · rw [if_pos satisfied]
    exact ⟨.inSync, rfl, iff_of_true rfl satisfied⟩
  · rw [if_neg satisfied]
    cases installed with
    | none => exact ⟨_, rfl, iff_of_false nofun satisfied⟩
    | some current => exact ⟨_, rfl, iff_of_false nofun satisfied⟩

theorem apply_of_satisfied (read : (host.answer (.installedVersion p.package) w.machine).1 = .ok installed)
    (satisfied : p.satisfiedBy installed = true) :
    w.run (p.apply host).run = (.ok .unchanged, w.after host (.installedVersion p.package)) :=
  apply_eq_ok.mpr ⟨installed, read, .inl ⟨satisfied, rfl, rfl⟩⟩

/-- The action tells the manager to install the package. -/
def Installs (host : Host σ) (p : Package) (w : World σ) : Prop :=
  ∃ made, (w.run (p.apply host).run).2.calls = w.calls ++ made ∧ .install p.package p.version ∈ made

theorem not_installs_of_satisfied (read : (host.answer (.installedVersion p.package) w.machine).1 = .ok installed)
    (satisfied : p.satisfiedBy installed = true) : ¬ p.Installs host w := by
  rintro ⟨made, log, install⟩
  rw [apply_of_satisfied read satisfied, World.after_calls, List.append_cancel_left_eq] at log
  rw [← log, List.mem_singleton] at install
  cases install

theorem installs_of_unsatisfied (read : (host.answer (.installedVersion p.package) w.machine).1 = .ok found)
    (unsatisfied : p.satisfiedBy found = false) : p.Installs host w := by
  have changes : Changes w (w.run (p.apply host).run).2 := by
    have looked : Adds p.MayCall w (w.after host (.installedVersion p.package)) :=
      ⟨[.installedVersion p.package], rfl, List.forall_mem_singleton.mpr (Or.inl rfl)⟩
    have install : Changes (w.after host (.installedVersion p.package)) (p.afterInstall host w) :=
      ⟨[.install p.package p.version], rfl, _, List.mem_singleton_self _, rfl⟩
    unfold apply
    rw [World.try_bind, run_look read]
    dsimp only
    rw [if_neg (Bool.eq_false_iff.mp unsatisfied)]
    refine Changes.earlier looked (Acts.tryChanges (P := p.MayCall) host install fun _ => ?_)
    exact .tryBind (.ofReply (.call _ (Or.inl rfl))) fun _ => .tryPure _
  obtain ⟨made, log, c, member, mutates⟩ := changes
  obtain ⟨same, sameLog, may⟩ := (p.apply_bare host).acts.makes.adds w
  rw [log, List.append_cancel_left_eq] at sameLog
  subst sameLog
  rcases may c member with rfl | rfl
  · cases mutates
  · exact ⟨made, log, member⟩

theorem settled_iff (read : (host.answer (.installedVersion p.package) m).1 = .ok installed) :
    p.Settled host m ↔ p.satisfiedBy installed = true := by
  constructor
  · rintro ⟨listed, again, satisfied⟩
    rw [read] at again
    cases again
    exact satisfied
  · exact fun satisfied => ⟨installed, read, satisfied⟩

theorem check_inSync_iff : (w.run (p.check host).run).1 = .ok .inSync ↔ p.Settled host w.machine := by
  constructor
  · intro told
    obtain ⟨installed, next, looked, -⟩ := World.try_bind_eq_ok.mp (World.run_of_answer told)
    have read : (host.answer (.installedVersion p.package) w.machine).1 = .ok installed :=
      congrArg Prod.fst (World.try_ofReply_eq_ok.mp looked)
    obtain ⟨drift, ran, inSync⟩ := check_of_read read
    rw [ran] at told
    exact (settled_iff read).mpr (inSync.mp (Except.ok.inj told))
  · rintro ⟨installed, read, satisfied⟩
    obtain ⟨drift, ran, inSync⟩ := check_of_read read
    rw [ran, inSync.mpr satisfied]

theorem apply_unchanged_iff : (w.run (p.apply host).run).1 = .ok .unchanged ↔ p.Settled host w.machine := by
  constructor
  · intro told
    obtain ⟨found, read, ⟨satisfied, -⟩ | ⟨-, _, -, -, converged, -⟩⟩ := apply_eq_ok.mp (World.run_of_answer told)
    · exact ⟨found, read, satisfied⟩
    · cases converged
  · rintro ⟨installed, read, satisfied⟩
    rw [apply_of_satisfied read satisfied]

/-- Worlds that checks and actions of the package come to, in any order. -/
inductive Revisited (host : Host σ) (p : Package) (w : World σ) : World σ → Prop
  | here : Revisited host p w w
  | checked {later : World σ} (before : Revisited host p w later) :
    Revisited host p w (later.run (p.check host).run).2
  | applied {later : World σ} (before : Revisited host p w later) :
    Revisited host p w (later.run (p.apply host).run).2

/-- The manager lists the package as it is wanted, and after any number of checks and actions a check finds nothing to
do and an action installs nothing. -/
structure There (host : Host σ) (p : Package) (w : World σ) : Prop where
  settled : p.Settled host w.machine
  stays : ∀ later, Revisited host p w later → (later.run (p.check host).run).1 = .ok .inSync ∧
    (later.run (p.apply host).run).1 = .ok .unchanged ∧ ¬ p.Installs host later

/-- The manager does not list the package as it is wanted: a check tells of that, and an action installs it again. -/
structure Missing (host : Host σ) (p : Package) (w : World σ) : Prop where
  unsettled : ¬ p.Settled host w.machine
  drifted : ∃ text, (w.run (p.check host).run).1 = .ok (.drifted text)
  installs : p.Installs host w

theorem Revisited.alike (quiet : host.Quiet m (.installedVersion p.package))
    (read : (host.answer (.installedVersion p.package) m).1 = .ok installed)
    (satisfied : p.satisfiedBy installed = true)
    (alike : host.Alike w.machine m) (visited : Revisited host p w later) : host.Alike later.machine m := by
  induction visited with
  | here => exact alike
  | checked _ ih =>
    obtain ⟨drift, ran, -⟩ := check_of_read ((ih.answer _).trans read)
    rw [ran]
    exact (ih.after _).trans quiet
  | applied _ ih =>
    rw [apply_of_satisfied ((ih.answer _).trans read) satisfied]
    exact (ih.after _).trans quiet

theorem there_of_satisfied (quiet : host.Quiet m (.installedVersion p.package))
    (read : (host.answer (.installedVersion p.package) m).1 = .ok installed)
    (satisfied : p.satisfiedBy installed = true)
    (alike : host.Alike w.machine m) : There host p w := by
  refine ⟨⟨installed, (alike.answer _).trans read, satisfied⟩, fun later visited => ?_⟩
  have again := ((visited.alike quiet read satisfied alike).answer _).trans read
  have settled : p.Settled host later.machine := ⟨installed, again, satisfied⟩
  exact ⟨check_inSync_iff.mpr settled, apply_unchanged_iff.mpr settled, not_installs_of_satisfied again satisfied⟩

theorem missing_of_unsatisfied (read : (host.answer (.installedVersion p.package) w.machine).1 = .ok installed)
    (unsatisfied : p.satisfiedBy installed = false) : Missing host p w := by
  have unsettled : ¬ p.Settled host w.machine := by
    rw [settled_iff read, unsatisfied]
    exact Bool.false_ne_true
  obtain ⟨drift, ran, inSync⟩ := check_of_read read
  refine ⟨unsettled, ?_, installs_of_unsatisfied read unsatisfied⟩
  rw [ran]
  cases drift with
  | inSync => exact absurd ((settled_iff read).mpr (inSync.mp rfl)) unsettled
  | drifted text => exact ⟨text, rfl⟩

/-- A manager that lists the package otherwise than it is wanted, whatever is installed, is told to install it by every
action, each of which tells of a change. -/
theorem Revisited.reinstalls {I : σ → Prop} (unsatisfied : p.satisfiedBy found = false)
    (looks : ∀ m, I m → (host.answer (.installedVersion p.package) m).1 = .ok found ∧
      I (host.answer (.installedVersion p.package) m).2)
    (succeeds : ∀ m, I m → (host.answer (.install p.package p.version) m).1 = .ok () ∧
      I (host.answer (.install p.package p.version) m).2)
    (holds : I w.machine) (visited : Revisited host p w later) :
    I later.machine ∧ Missing host p later ∧ (later.run (p.apply host).run).1 =
      .ok (.converged ("installed " ++ p.package ++ " " ++ found.getD "unknown version")) := by
  have step {w : World σ} (holds : I w.machine) : I (p.afterInstall host w).machine ∧
      w.run (p.apply host).run = (.ok (.converged ("installed " ++ p.package ++ " " ++ found.getD "unknown version")),
        (p.afterInstall host w).after host (.installedVersion p.package)) := by
    obtain ⟨read, looked⟩ := looks _ holds
    obtain ⟨ok, installed⟩ := succeeds _ looked
    obtain ⟨again, -⟩ := looks _ installed
    exact ⟨installed, apply_eq_ok.mpr ⟨found, read, .inr ⟨unsatisfied, found, ok, again, rfl, rfl⟩⟩⟩
  have still : I later.machine := by
    induction visited with
    | here => exact holds
    | checked _ ih =>
      obtain ⟨read, looked⟩ := looks _ ih
      obtain ⟨drift, ran, -⟩ := check_of_read read
      rw [ran]
      exact looked
    | applied _ ih =>
      obtain ⟨installed, ran⟩ := step ih
      rw [ran]
      exact (looks _ installed).2
  exact ⟨still, missing_of_unsatisfied (looks _ still).1 unsatisfied, congrArg Prod.fst (step still).2⟩

/-- A package that was installed is there just if the manager lists it as it is wanted when it is asked again, which no
later call is to notice; otherwise it is missing. -/
theorem converged_there_iff (ran : w.run (p.apply host).run = (.ok (.converged detail), last)) :
    ((last.run (p.check host).run).1 = .ok .inSync ↔ p.Settled host last.machine) ∧
      ((last.run (p.apply host).run).1 = .ok .unchanged ↔ p.Settled host last.machine) ∧
      ∃ installed, (host.answer (.installedVersion p.package) (p.afterInstall host w).machine).1 = .ok installed ∧
        detail = "installed " ++ p.package ++ " " ++ installed.getD "unknown version" ∧
        (host.Quiet (p.afterInstall host w).machine (.installedVersion p.package) →
          (p.Fits installed → There host p last) ∧ (¬ p.Fits installed → Missing host p last)) := by
  refine ⟨check_inSync_iff, apply_unchanged_iff, ?_⟩
  obtain ⟨-, -, ⟨-, unchanged, -⟩ | ⟨-, installed, -, read, told, rfl⟩⟩ := apply_eq_ok.mp ran
  · cases unchanged
  refine ⟨installed, read, Change.converged.inj told, fun quiet => ?_⟩
  rw [← satisfiedBy_iff]
  constructor
  · exact fun satisfied => there_of_satisfied quiet read satisfied quiet
  · exact fun unsatisfied => missing_of_unsatisfied ((quiet.answer _).trans read) (Bool.eq_false_iff.mpr unsatisfied)

end

def packageWorld : World Machine where
  machine := { Machine.empty with packages := [("htop", "2.0.1")], offers := [("htop", none), ("mta", none)] }
  context := ⟨false, false, .empty, .object [], .warn, []⟩
  calls := []
  events := []

theorem converged_there_iff_curl :
    ∃ last, packageWorld.run (apply Machine.host ⟨"php-curl", none⟩).run =
        (.ok (.converged "installed php-curl 1.0"), last) ∧
      There Machine.host ⟨"php-curl", none⟩ last := by
  have ran := World.run_of_answer (w := packageWorld) (x := (apply Machine.host ⟨"php-curl", none⟩).run)
    (a := .ok (.converged "installed php-curl 1.0")) (by decide +kernel)
  obtain ⟨-, -, installed, read, -, rest⟩ := converged_there_iff ran
  have listed : (Machine.host.answer (.installedVersion "php-curl")
      (afterInstall Machine.host ⟨"php-curl", none⟩ packageWorld).machine).1 = .ok (some "1.0") := by decide +kernel
  obtain rfl := Except.ok.inj (listed.symm.trans read)
  have quiet := Machine.look_quiet (c := .installedVersion "php-curl") rfl rfl
    (afterInstall Machine.host ⟨"php-curl", none⟩ packageWorld).machine
  exact ⟨_, ran, (rest quiet).1 ⟨"1.0", rfl, nofun⟩⟩

/-- Installing the package succeeds, and leaves the version that is listed. -/
structure HeldBack (p : Package) (listed : Option String) (m : Machine) : Prop where
  looks : m.failures.get? ("installed " ++ p.package) = none
  installs : m.failures.get? ("install " ++ p.package) = none
  offers : m.offers.get? p.package = some none
  packages : m.packages.get? p.package = listed

section

variable {p : Package} {listed : Option String} {m : Machine} {w : World Machine}

theorem HeldBack.look (held : p.HeldBack listed m) :
    (Machine.host.answer (.installedVersion p.package) m).1 = .ok listed ∧
      p.HeldBack listed (Machine.host.answer (.installedVersion p.package) m).2 := by
  have answer : Machine.host.answer (.installedVersion p.package) m = (.ok (m.packages.get? p.package), m) := by
    simp only [Machine.host, Machine.answer, Machine.attempt, held.looks]
  rw [answer, held.packages]
  exact ⟨rfl, held⟩

theorem HeldBack.install (held : p.HeldBack listed m) :
    (Machine.host.answer (.install p.package p.version) m).1 = .ok () ∧
      p.HeldBack listed (Machine.host.answer (.install p.package p.version) m).2 := by
  have nothing : m.offered p.package p.version = none := by
    simp only [Machine.offered, held.offers]
  have answer : Machine.host.answer (.install p.package p.version) m =
      (.ok (), m.log (.install p.package p.version)) := by
    simp only [Machine.host, Machine.answer, Machine.attempt, held.installs, nothing]
  rw [answer]
  exact ⟨rfl, held.looks, held.installs, held.offers, held.packages⟩

theorem HeldBack.reinstalled (held : p.HeldBack listed w.machine) (unsatisfied : p.satisfiedBy listed = false) :
    ∃ last, w.run (p.apply Machine.host).run =
        (.ok (.converged ("installed " ++ p.package ++ " " ++ listed.getD "unknown version")), last) ∧
      ∀ later, Revisited Machine.host p last later → Missing Machine.host p later ∧
        (later.run (p.apply Machine.host).run).1 =
          .ok (.converged ("installed " ++ p.package ++ " " ++ listed.getD "unknown version")) := by
  have always {w later : World Machine} (held : p.HeldBack listed w.machine)
      (visited : Revisited Machine.host p w later) :=
    visited.reinstalls unsatisfied (fun _ => HeldBack.look) (fun _ => HeldBack.install) held
  obtain ⟨-, -, told⟩ := always held .here
  obtain ⟨heldAfter, -, -⟩ := always held (.applied .here)
  exact ⟨_, World.run_of_answer told, fun later visited => (always heldAfter visited).2⟩

end

theorem converged_not_there :
    (∃ last, packageWorld.run (apply Machine.host ⟨"mta", none⟩).run =
        (.ok (.converged "installed mta unknown version"), last) ∧
      ∀ later, Revisited Machine.host ⟨"mta", none⟩ last later → Missing Machine.host ⟨"mta", none⟩ later ∧
        (later.run (apply Machine.host ⟨"mta", none⟩).run).1 = .ok (.converged "installed mta unknown version")) ∧
    ∃ last, packageWorld.run (apply Machine.host ⟨"htop", some "2.0.2"⟩).run =
        (.ok (.converged "installed htop 2.0.1"), last) ∧
      ∀ later, Revisited Machine.host ⟨"htop", some "2.0.2"⟩ last later →
        Missing Machine.host ⟨"htop", some "2.0.2"⟩ later ∧
        (later.run (apply Machine.host ⟨"htop", some "2.0.2"⟩).run).1 = .ok (.converged "installed htop 2.0.1") := by
  have mta : HeldBack ⟨"mta", none⟩ none packageWorld.machine := by constructor <;> rfl
  have htop : HeldBack ⟨"htop", some "2.0.2"⟩ (some "2.0.1") packageWorld.machine := by constructor <;> rfl
  exact ⟨mta.reinstalled rfl, htop.reinstalled rfl⟩

end Package

end Provision
