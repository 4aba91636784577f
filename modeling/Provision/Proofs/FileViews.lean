import Provision.Proofs.FaithfulMachine

namespace Provision

variable {σ : Type}

inductive Occupant where
  | file (text : String)
  | link (target : String)
  | other
deriving DecidableEq, Repr

def Occupant.target? : Occupant → Option String
  | .link target => some target
  | _ => none

abbrev Files := String → Option Occupant

namespace Files

variable {f g : Files} {path q : String}

def Plain (f : Files) (path : String) : Prop := ∀ target, f path ≠ some (.link target)

theorem plain_of_none (nothing : f path = none) : f.Plain path := by
  intro target linked
  rw [nothing] at linked
  cases linked

def Blocked (f : Files) (path : String) : Prop := ∃ e, f path = some e ∧ e.target? = none

/-- Another path, and no missing directory on the way to the path. -/
def Aside (f : Files) (path q : String) : Prop :=
  Path.same path q = false ∧ (f q ≠ none ∨ Path.isWithin q path = false)

structure Sets (f g : Files) (path : String) (e : Option Occupant) : Prop where
  here : g path = e
  aside : ∀ q, f.Aside path q → g q = f q

theorem Aside.kept (aside : f.Aside path q) (same : g q = f q) : g.Aside path q := by
  unfold Aside
  rw [same]
  exact aside

theorem Sets.refl (f : Files) (path : String) : f.Sets f path (f path) := ⟨rfl, fun _ _ => rfl⟩

/-- What a path holds after a call that may be refused. -/
def outcome (reply : Except Fault Unit) (wanted found : Option Occupant) : Option Occupant :=
  match reply with
  | .ok () => wanted
  | .error _ => found

end Files

/-- What the states of a host hold as a file system, as far as a site is concerned. Writing makes the directories on the
way; what is refused is not done; and no call of the site stands in the way of what could be read or rendered before. -/
structure FileView (host : Host σ) (s : Site) (name : String) where
  files : σ → Files
  /-- The states that the view is right about. -/
  Sound : σ → Prop
  look : ∀ m c, Sound m → s.MayCall name c → c.OnlyLooks →
    Sound (host.answer c m).2 ∧ files (host.answer c m).2 = files m
  read : ∀ m found, Sound m → (files m).Plain (s.configPath name) →
    (host.answer (.read (s.configPath name)) m).1 = .ok found → files m (s.configPath name) = found.map .file
  readLink : ∀ m found, Sound m → (host.answer (.readLink (s.linkPath name)) m).1 = .ok found →
    found = (files m (s.linkPath name)).bind Occupant.target?
  write : ∀ m text, Sound m → (files m).Plain (s.configPath name) →
    Sound (host.answer (.write (s.configPath name) text) m).2 ∧
      (files m).Sets (files (host.answer (.write (s.configPath name) text) m).2) (s.configPath name)
        (Files.outcome (host.answer (.write (s.configPath name) text) m).1 (some (.file text))
          (files m (s.configPath name)))
  symlink : ∀ m, Sound m → Sound (host.answer (.symlink (s.configPath name) (s.linkPath name)) m).2 ∧
    (files m).Sets (files (host.answer (.symlink (s.configPath name) (s.linkPath name)) m).2) (s.linkPath name)
      (Files.outcome (host.answer (.symlink (s.configPath name) (s.linkPath name)) m).1
        (some (.link (s.configPath name))) (files m (s.linkPath name)))
  remove : ∀ m, Sound m → Sound (host.answer (.remove (s.linkPath name)) m).2 ∧
    (files m).Sets (files (host.answer (.remove (s.linkPath name)) m).2) (s.linkPath name)
      (Files.outcome (host.answer (.remove (s.linkPath name)) m).1 none (files m (s.linkPath name)))
  readable : ∀ m c, Sound m → (files m).Plain (s.configPath name) → s.MayCall name c →
    (∃ found, (host.answer (.read (s.configPath name)) m).1 = .ok found) →
      ∃ found, (host.answer (.read (s.configPath name)) (host.answer c m).2).1 = .ok found
  linkReadable : ∀ m c, Sound m → s.MayCall name c →
    (∃ found, (host.answer (.readLink (s.linkPath name)) m).1 = .ok found) →
      ∃ found, (host.answer (.readLink (s.linkPath name)) (host.answer c m).2).1 = .ok found
  render : ∀ m c context, Sound m → s.MayCall name c →
    (host.answer (.render s.template context) (host.answer c m).2).1 = (host.answer (.render s.template context) m).1

namespace Machine

variable {m : Machine} {path q : String}

def holds (m : Machine) : Files := fun path =>
  match m.links.get? path with
  | some target => some (.link target)
  | none => (m.files.get? path).map fun f => .file f.content

def Separate (m : Machine) : Prop := ∀ path, m.links.get? path ≠ none → m.files.get? path = none

theorem link_of_plain (plain : m.holds.Plain path) : m.links.get? path = none := by
  cases linked : m.links.get? path with
  | none => rfl
  | some target => exact absurd (by simp [holds, linked]) (plain target)

theorem target_holds (m : Machine) (path : String) : (m.holds path).bind Occupant.target? = m.links.get? path := by
  unfold holds
  cases m.links.get? path with
  | some target => rfl
  | none => cases m.files.get? path <;> rfl

theorem attempt_eq_ok {α : Type} {call : String} {act : Machine → Except Fault α × Machine} {a : α} :
    (m.attempt call act).1 = .ok a ↔ m.failures.get? call = none ∧ (act m).1 = .ok a := by
  unfold attempt
  cases m.failures.get? call with
  | some fault => simp
  | none => simp

def Places (m : Machine) (path : String) (wanted : Option Occupant) (answered : Except Fault Unit × Machine) : Prop :=
  answered.2.Separate ∧ m.holds.Sets answered.2.holds path (Files.outcome answered.1 wanted (m.holds path))

theorem refused_places {wanted : Option Occupant} (separate : m.Separate) (fault : Fault) :
    m.Places path wanted (.error fault, m) :=
  ⟨separate, .refl _ _⟩

theorem attempt_places {wanted : Option Occupant} {call : String} {act : Machine → Except Fault Unit × Machine}
    (separate : m.Separate) (acted : m.Places path wanted (act m)) : m.Places path wanted (m.attempt call act) := by
  unfold attempt
  split
  · exact refused_places separate _
  · exact acted

theorem done_places {n : Machine} (separate : m.Separate) (links : ∀ q ≠ path, n.links.get? q = m.links.get? q)
    (files : ∀ q ≠ path, n.files.get? q = m.files.get? q)
    (here : n.links.get? path ≠ none → n.files.get? path = none) : m.Places path (n.holds path) (.ok (), n) := by
  refine ⟨fun q linked => ?_, rfl, fun q aside => ?_⟩
  · by_cases same : q = path
    · subst same
      exact here linked
    · rw [links q same] at linked
      exact (files q same).trans (separate q linked)
  · have other : q ≠ path := by
      rintro rfl
      simp [Files.Aside, Path.same] at aside
    change n.holds q = m.holds q
    rw [holds, holds, links q other, files q other]

theorem write_places (separate : m.Separate) (plain : m.holds.Plain path) (text : String) :
    m.Places path (some (.file text)) (host.answer (.write path text) m) := by
  have unlinked := link_of_plain plain
  have content : (m.written path text).content = text := by
    unfold written
    split <;> rfl
  let n := { m with files := m.files.insert path (m.written path text) }.log (.write path text)
  have holds : n.holds path = some (.file text) := by simp [n, holds, log, unlinked, content]
  refine attempt_places separate ?_
  rw [← holds]
  exact done_places (n := n) separate (fun _ _ => rfl) (fun q => SortedMap.get?_insert_of_ne _ _)
    fun linked => absurd unlinked linked

theorem symlink_places (separate : m.Separate) (source path : String) :
    m.Places path (some (.link source)) (host.answer (.symlink source path) m) := by
  let n := { m with links := m.links.insert path source }.log (.symlink source path)
  have holds : n.holds path = some (.link source) := by simp [n, holds, log]
  refine attempt_places separate ?_
  split
  · exact refused_places separate _
  · rename_i vacant
    have missing : m.files.get? path = none := by
      simp only [SortedMap.contains, Bool.or_eq_true, not_or, Bool.not_eq_true, Option.isSome_eq_false_iff,
        Option.isNone_iff_eq_none] at vacant
      exact vacant.2
    rw [← holds]
    exact done_places (n := n) separate (fun q => SortedMap.get?_insert_of_ne _ _) (fun _ _ => rfl) fun _ => missing

theorem remove_places (separate : m.Separate) (path : String) :
    m.Places path none (host.answer (.remove path) m) := by
  refine attempt_places separate ?_
  split
  · rename_i linked
    let n := { m with links := m.links.erase path }.log (.remove path)
    have missing : m.files.get? path = none := separate path (Option.isSome_iff_ne_none.mp linked)
    have holds : n.holds path = none := by simp [n, holds, log, missing]
    rw [← holds]
    exact done_places (n := n) separate (fun q => SortedMap.get?_erase_of_ne _) (fun _ _ => rfl) fun _ => missing
  · rename_i unlinked
    have unlinked : m.links.get? path = none := Option.not_isSome_iff_eq_none.mp unlinked
    split
    · let n := { m with files := m.files.erase path }.log (.remove path)
      have holds : n.holds path = none := by simp [n, holds, log, unlinked]
      rw [← holds]
      exact done_places (n := n) separate (fun _ _ => rfl) (fun q => SortedMap.get?_erase_of_ne _)
        fun linked => absurd unlinked linked
    · exact refused_places separate _

theorem read_eq_ok {found : Option String} : (host.answer (.read path) m).1 = .ok found ↔
    m.failures.get? ("read " ++ path) = none ∧ (m.fileAt? path).map (·.content) = found :=
  attempt_eq_ok.trans (and_congr_right fun _ => ⟨Except.ok.inj, congrArg Except.ok⟩)

theorem readLink_eq_ok {found : Option String} : (host.answer (.readLink path) m).1 = .ok found ↔
    m.failures.get? ("read_link " ++ path) = none ∧ m.links.get? path = found :=
  attempt_eq_ok.trans (and_congr_right fun _ => ⟨Except.ok.inj, congrArg Except.ok⟩)

theorem look_same {c : Call} (looks : c.OnlyLooks) (m : Machine) : (host.answer c m).2 = m :=
  answer_look looks.1 looks.2 m

def view (s : Site) (name : String) : FileView host s name where
  files := holds
  Sound := Separate
  look := by
    intro m c separate _ looks
    rw [look_same looks]
    exact ⟨separate, rfl⟩
  read := by
    intro m found _ plain read
    have unlinked := link_of_plain plain
    rw [← (read_eq_ok.mp read).2]
    simp [holds, fileAt?, unlinked, Function.comp_def]
  readLink := by
    intro m found _ read
    rw [target_holds]
    exact (readLink_eq_ok.mp read).2.symm
  write := fun m text separate plain => write_places separate plain text
  symlink := fun m separate => symlink_places separate _ _
  remove := fun m separate => remove_places separate _
  readable := by
    rintro m c _ _ _ ⟨found, read⟩
    have allowed := (read_eq_ok.mp read).1
    rw [← (answer_sameSetup c m).failures] at allowed
    exact ⟨_, read_eq_ok.mpr ⟨allowed, rfl⟩⟩
  linkReadable := by
    rintro m c _ _ ⟨found, read⟩
    have allowed := (readLink_eq_ok.mp read).1
    rw [← (answer_sameSetup c m).failures] at allowed
    exact ⟨_, readLink_eq_ok.mpr ⟨allowed, rfl⟩⟩
  render := fun m c context _ _ => (answer_sameSetup c m).render s.template context

end Machine

end Provision
