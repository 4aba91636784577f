import Provision.Machine.Basic
import Provision.Proofs.Calls
import Provision.Proofs.RunOrder

namespace Provision

variable {σ : Type}

/-- Since `since` the command was executed as a notification and ended well. -/
def Notified (host : Host σ) (since last : World σ) (command : String) : Prop :=
  ∃ before after output,
    last.calls = since.calls ++ before ++ .notification since.context.env command :: after ∧
      (host.answer (.notification since.context.env command) (host.leads since.machine before)).1 = .ok output ∧
        output.succeeded = true

namespace Converge

variable {host : Host σ} {w last : World σ}

theorem not_notified_of_calls (silent : last.calls = w.calls) (command : String) : ¬ Notified host w last command := by
  rintro ⟨before, after, -, calls, -⟩
  rw [silent, List.append_assoc] at calls
  have nothing := List.self_eq_append_right.mp calls
  simp at nothing

theorem notified_after {first command : String} {rest : List Call}
    (calls : last.calls = (w.after host (.notification w.context.env first)).calls ++ rest) :
    Notified host w last command ↔
      (command = first ∧ (NotificationReport.ofReply first
        (host.answer (.notification w.context.env first) w.machine).1).success = true) ∨
      Notified host (w.after host (.notification w.context.env first)) last command := by
  constructor
  · rintro ⟨before, after, output, here, answer, ended⟩
    rw [here, World.after_calls, List.append_assoc, List.append_assoc, List.append_cancel_left_eq] at calls
    cases before with
    | nil =>
      have same : command = first := by
        have := (List.cons.inj calls).1
        injection this
      subst same
      exact Or.inl ⟨rfl, (NotificationReport.ofReply_success _ _).mpr ⟨output, answer, ended⟩⟩
    | cons call before =>
      have same : call = .notification w.context.env first := (List.cons.inj calls).1
      subst same
      exact Or.inr ⟨before, after, output, by simp [here], answer, ended⟩
  · rintro (⟨rfl, ok⟩ | ⟨before, after, output, here, answer, ended⟩)
    · obtain ⟨output, answer, ended⟩ := (NotificationReport.ofReply_success _ _).mp ok
      exact ⟨[], rest, output, by simp [calls], answer, ended⟩
    · exact ⟨.notification w.context.env first :: before, after, output, by simp [here], answer, ended⟩

theorem notified_iff_mem (commands : List String) (w : World σ) (command : String) :
    Notified host w (w.run (notifyAll host commands)).2 command ↔
      ⟨command, true, ""⟩ ∈ (w.run (notifyAll host commands)).1 := by
  induction commands generalizing w with
  | nil =>
    have silent : (w.run (notifyAll host [])).2.calls = w.calls := rfl
    exact iff_of_false (not_notified_of_calls silent command) (List.not_mem_nil)
  | cons first rest ih =>
    rw [run_notifyAll_cons, run_notify]
    by_cases ok : (NotificationReport.ofReply first
        (host.answer (.notification w.context.env first) w.machine).1).success = true
    · rw [if_pos ok, notified_after (notifyAll_calls host _ rest), ih, List.mem_cons,
        NotificationReport.eq_of_success ok]
      simp
    · rw [if_neg ok, notified_after (List.append_nil _).symm]
      have bad := NotificationReport.eq_of_failure (Bool.eq_false_iff.mpr ok)
      obtain ⟨detail, report⟩ := bad
      have later : ¬ Notified host (w.after host (.notification w.context.env first))
          (w.after host (.notification w.context.env first)) command := not_notified_of_calls rfl command
      simp [later, report]

/-- Once the resources were taken, the command was executed as a notification and ended well. -/
def Delivered (host : Host σ) (opts : RunOptions) (l : RunList) (w : World σ) (command : String) : Prop :=
  Notified host (walked host opts l w).2 (worldOf host opts l w) command

variable {opts : RunOptions} {l : RunList} {command : String}

theorem delivered_iff_mem (real : opts.dryRun = false) :
    Delivered host opts l w command ↔ ⟨command, true, ""⟩ ∈ (notified host opts l w).1 := by
  have moved : Delivered host opts l w command ↔
      Notified host (walked host opts l w).2 (notified host opts l w).2 command := Iff.rfl
  rw [moved]
  unfold notified
  by_cases stops : (walked host opts l w).1.any ResourceReport.aborts = true
  · simp only [stops, Bool.true_or, ↓reduceIte, List.not_mem_nil, iff_false]
    exact not_notified_of_calls rfl command
  · simp only [stops, real, Bool.or_false, Bool.false_eq_true, ↓reduceIte]
    exact notified_iff_mem _ _ _

theorem delivered_of_completed (real : opts.dryRun = false) (completed : finalState host opts l w = .completed) :
    Delivered host opts l w command ↔ command ∈ due l.resources (walked host opts l w).1 := by
  have fine : ¬ finalState host opts l w = .aborted := (finalState_completed_iff l w).mp completed
  rw [finalState_aborted_iff, not_or, ← (walked_walk l w).any_aborts] at fine
  obtain ⟨noFatal, noBad⟩ := fine
  have all : (notified host opts l w).1 = (due l.resources (walked host opts l w).1).map (⟨·, true, ""⟩) := by
    have ended : Ended (due l.resources (walked host opts l w).1) (notified host opts l w).1 := by
      simp only [notified, noFatal, real, Bool.or_false, Bool.false_eq_true, ↓reduceIte]
      exact notifyAll_ended host _ _
    apply ended.all_of_success
    intro n member
    by_cases ok : n.success = true
    · exact ok
    · exact absurd ⟨n, member, Bool.eq_false_iff.mpr ok⟩ noBad
  rw [delivered_iff_mem real, all, List.mem_map]
  constructor
  · rintro ⟨c, member, same⟩
    cases same
    exact member
  · intro member
    exact ⟨command, member, rfl⟩

/-- A run that is aborted has executed what was due before the command that failed, and nothing if
a resource ended it. -/
theorem delivered_of_aborted (real : opts.dryRun = false) (aborted : finalState host opts l w = .aborted) :
    Delivered host opts l w command ↔
      command ∈ (due l.resources (walked host opts l w).1).take ((notified host opts l w).1.length - 1) := by
  rw [delivered_iff_mem real]
  rcases (finalState_aborted_iff l w).mp aborted with ⟨x, final, fatal⟩ | bad
  · simp [notified_of_fatal final fatal]
  · obtain ⟨n, member, failed⟩ := bad
    have ran : _ ∨ Ended _ (notified host opts l w).1 := notified_ended l w
    rcases ran with silent | ended
    · rw [silent] at member
      cases member
    · generalize due l.resources (walked host opts l w).1 = commands at ended ⊢
      generalize (notified host opts l w).1 = reports at member ended ⊢
      rcases ended with _ | ⟨before, bad, after, detail⟩
      · obtain ⟨c, -, rfl⟩ := List.mem_map.mp member
        cases failed
      · simp

end Converge

open Converge in
/-- What becomes of notifications when a run that was aborted is followed by one that completes, in
whatever context. What the later run changed is announced. What the earlier run changed is announced
if its command came before the one that failed there, or if the later run changes a resource that
asks for the same command; in no other case. -/
theorem rerun_delivers {host : Host σ} {opts again : RunOptions} {l : RunList} {w w₁ w₂ : World σ}
    {context : Context} {first second : RunReport}
    (real : opts.dryRun = false) (realAgain : again.dryRun = false)
    (ran : w.run (converge host l opts).run = (.ok first, w₁)) (aborted : first.state = .aborted)
    (ranAgain : World.run { w₁ with context } (converge host l again).run = (.ok second, w₂))
    (completed : second.state = .completed) :
    (∀ r x command, (r, x) ∈ l.resources.zip second.resources → x.outcome.isChange = true →
      command ∈ r.notifies → Delivered host again l { w₁ with context } command) ∧
    ∀ command, Delivered host opts l w command ∨ Delivered host again l { w₁ with context } command ↔
      command ∈ (due l.resources first.resources).take (first.notifications.length - 1) ∨
        ∃ r x, (r, x) ∈ l.resources.zip second.resources ∧ x.outcome.isChange = true ∧ command ∈ r.notifies := by
  obtain ⟨-, rfl, rfl⟩ := converge_eq_ok ran
  obtain ⟨-, rfl, rfl⟩ := converge_eq_ok ranAgain
  constructor
  · intro r x command member change asked
    exact (delivered_of_completed realAgain completed).mpr (mem_due.mpr ⟨r, x, member, change, asked⟩)
  · intro command
    rw [delivered_of_aborted real aborted, delivered_of_completed realAgain completed, mem_due]
    exact Iff.rfl

def rebuildList : RunList :=
  ⟨[.ofResource { name := "conf", spec := .renderedFile ⟨"/etc/app.conf", "app.j2", []⟩, notifies := ["reload"] } [],
    .ofResource { name := "sync", spec := .command { command := "sync" }, notifies := ["restart"] } [],
    .ofResource { name := "build", spec := .command { command := "build", creates := some "/done" } } []]⟩

def rebuildWorld : World Machine where
  machine := { Machine.empty with
    commands := [("build", { output := ⟨1, "", ""⟩, creates := [("/done", { content := "" })] })] }
  context := ⟨false, false, .empty, .object [], .warn, []⟩
  calls := []
  events := []

def rebuildBetween : World Machine := Converge.worldOf Machine.host {} rebuildList rebuildWorld

open Converge in
theorem rerun_delivers_restart :
    (reportOf Machine.host {} rebuildList rebuildWorld).state = .aborted ∧
      (reportOf Machine.host {} rebuildList rebuildBetween).state = .completed ∧
      Delivered Machine.host {} rebuildList rebuildBetween "restart" := by
  have valid : rebuildList.validate .perKind = .ok () := by rfl
  have aborted : (reportOf Machine.host {} rebuildList rebuildWorld).state = .aborted := by decide +kernel
  have completed : (reportOf Machine.host {} rebuildList rebuildBetween).state = .completed := by decide +kernel
  have later := (rerun_delivers rfl rfl (converge_of_valid valid rebuildWorld) aborted
    (converge_of_valid valid rebuildBetween) completed).1
  have isDue : "restart" ∈ due rebuildList.resources
      (reportOf Machine.host {} rebuildList rebuildBetween).resources := by decide +kernel
  obtain ⟨r, x, member, change, asked⟩ := mem_due.mp isDue
  exact ⟨aborted, completed, later r x "restart" member change asked⟩

open Converge in
/-- The reload that the changed configuration asks for is lost: the later run finds nothing to do. -/
theorem rerun_loses_reload :
    ∃ first second : RunReport, ∃ last : World Machine,
      rebuildWorld.run (converge Machine.host rebuildList {}).run = (.ok first, rebuildBetween) ∧
        rebuildBetween.run (converge Machine.host rebuildList {}).run = (.ok second, last) ∧
        first.state = .aborted ∧ second.state = .completed ∧
        (∃ r x, (r, x) ∈ rebuildList.resources.zip first.resources ∧ x.outcome.isChange = true ∧
          "reload" ∈ r.notifies) ∧
        ¬ Delivered Machine.host {} rebuildList rebuildWorld "reload" ∧
        ¬ Delivered Machine.host {} rebuildList rebuildBetween "reload" := by
  have valid : rebuildList.validate .perKind = .ok () := by rfl
  have isDue : "reload" ∈ due rebuildList.resources
      (reportOf Machine.host {} rebuildList rebuildWorld).resources := by decide +kernel
  refine ⟨_, _, _, converge_of_valid valid rebuildWorld, converge_of_valid valid rebuildBetween,
    by decide +kernel, by decide +kernel, mem_due.mp isDue, ?_, ?_⟩
  · rw [delivered_iff_mem rfl]
    decide +kernel
  · rw [delivered_iff_mem rfl]
    decide +kernel

end Provision
