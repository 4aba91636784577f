import Provision.Machine.Basic
import Provision.Proofs.Observation

namespace Provision.Machine

theorem answer_look {c : Call} (mutates : c.mutates = false) (isRun : c.isRun = false) (m : Machine) :
    (answer c m).2 = m := by
  cases c with
  | pathExists path => rfl
  | read path | owner path | readLink path | revision destination | render template context | jobs user
  | installedVersion package =>
    simp only [answer, attempt]
    split <;> rfl
  | run => cases isRun
  | write | chown | symlink | remove | checkout | installJob | install => cases mutates

def SameButJournal (m n : Machine) : Prop := ∃ journal, n = { m with journal }

theorem attempt_journal {α : Type} (m : Machine) (journal : List Call) (call : String)
    (act : Machine → Except Fault α × Machine)
    (same : (act { m with journal }).1 = (act m).1 ∧ SameButJournal (act m).2 (act { m with journal }).2) :
    (attempt { m with journal } call act).1 = (m.attempt call act).1 ∧
      SameButJournal (m.attempt call act).2 (attempt { m with journal } call act).2 := by
  simp only [attempt]
  cases m.failures.get? call with
  | some fault => exact ⟨rfl, journal, rfl⟩
  | none => exact same

theorem answer_journal (c : Call) (m : Machine) (journal : List Call) :
    (answer c { m with journal }).1 = (answer c m).1 ∧
      SameButJournal (answer c m).2 (answer c { m with journal }).2 := by
  cases c with
  | pathExists path => exact ⟨rfl, journal, rfl⟩
  | chown path owner group recursive =>
    apply attempt_journal
    dsimp only
    split
    · exact ⟨rfl, _, rfl⟩
    · exact ⟨rfl, journal, rfl⟩
  | symlink source link =>
    apply attempt_journal
    dsimp only
    split
    · exact ⟨rfl, journal, rfl⟩
    · exact ⟨rfl, _, rfl⟩
  | remove path =>
    apply attempt_journal
    dsimp only
    split
    · exact ⟨rfl, _, rfl⟩
    · split
      · exact ⟨rfl, _, rfl⟩
      · exact ⟨rfl, journal, rfl⟩
  | _ => exact attempt_journal m journal _ _ ⟨rfl, _, rfl⟩

theorem SameButJournal.likeness : host.Likeness SameButJournal where
  refl m := ⟨m.journal, rfl⟩
  trans := by
    rintro m n o ⟨journal, rfl⟩ ⟨later, rfl⟩
    exact ⟨later, rfl⟩
  answer := by
    rintro m n ⟨journal, rfl⟩ c
    exact (answer_journal c m journal).1.symm
  after := by
    rintro m n ⟨journal, rfl⟩ c
    exact (answer_journal c m journal).2

theorem look_quiet {c : Call} (mutates : c.mutates = false) (isRun : c.isRun = false) (m : Machine) :
    host.Quiet m c := by
  have kept : (host.answer c m).2 = m := answer_look mutates isRun m
  unfold Host.Quiet
  rw [kept]
  exact .refl m

theorem run_sameButJournal {m : Machine} {line : String} (user cwd : Option String) (env : SortedMap String)
    (nothing : ((m.commands.get? line).getD {}).creates = []) :
    SameButJournal (host.answer (.run line user cwd env) m).2 m := by
  simp only [host, answer, attempt]
  split
  · exact ⟨m.journal, rfl⟩
  · exact ⟨m.journal, by simp [Machine.run, nothing, putFiles, log]⟩

theorem run_quiet {m : Machine} {line : String} (user cwd : Option String) (env : SortedMap String)
    (nothing : ((m.commands.get? line).getD {}).creates = []) : host.Quiet m (.run line user cwd env) :=
  SameButJournal.likeness.alike (run_sameButJournal user cwd env nothing)

end Provision.Machine
