import Mathlib.Data.List.Nodup
import Provision.Proofs.Program

namespace Provision

variable {σ : Type}

@[reducible] def Call.notification (env : Environment) (command : String) : Call :=
  .run command none none env.vars

namespace NotificationReport

def ofReply (command : String) : Except Fault CommandOutput → NotificationReport
  | .error fault => ⟨command, false, (Error.collaborator fault).message⟩
  | .ok output =>
    if output.succeeded then ⟨command, true, ""⟩
    else ⟨command, false, (Error.commandFailed command output.exit output.stderr).message⟩

theorem ofReply_command (command : String) (reply : Except Fault CommandOutput) :
    (ofReply command reply).command = command := by
  rcases reply with fault | output
  · rfl
  · simp only [ofReply]
    split <;> rfl

theorem ofReply_success (command : String) (reply : Except Fault CommandOutput) :
    (ofReply command reply).success = true ↔ ∃ output, reply = .ok output ∧ output.succeeded = true := by
  rcases reply with fault | output
  · simp [ofReply]
  · by_cases h : output.succeeded = true <;> simp [ofReply, h]

theorem eq_of_success {command : String} {reply : Except Fault CommandOutput}
    (h : (ofReply command reply).success = true) : ofReply command reply = ⟨command, true, ""⟩ := by
  obtain ⟨output, rfl, ended⟩ := (ofReply_success _ _).mp h
  simp [ofReply, ended]

theorem eq_of_failure {command : String} {reply : Except Fault CommandOutput}
    (h : (ofReply command reply).success = false) : ∃ detail, ofReply command reply = ⟨command, false, detail⟩ := by
  rcases reply with fault | output
  · exact ⟨_, rfl⟩
  · by_cases ended : output.succeeded = true
    · simp [ofReply, ended] at h
    · exact ⟨_, by simp [ofReply, ended]; rfl⟩

end NotificationReport

/-- The different members of a list, in the order in which they first occur there. -/
structure FirstOccurrences (all firsts : List String) : Prop where
  nodup : firsts.Nodup
  mem_iff : ∀ a, a ∈ firsts ↔ a ∈ all
  inOrder : firsts.Pairwise fun a b => all.idxOf a < all.idxOf b

namespace FirstOccurrences

theorem nil : FirstOccurrences [] [] := ⟨.nil, fun _ => Iff.rfl, .nil⟩

theorem known {all firsts : List String} {a : String} (h : FirstOccurrences all firsts) (here : a ∈ firsts) :
    FirstOccurrences (all ++ [a]) firsts := by
  refine ⟨h.nodup, fun b => ?_, h.inOrder.imp_of_mem ?_⟩
  · rw [List.mem_append, List.mem_singleton, h.mem_iff]
    constructor
    · exact Or.inl
    · rintro (old | rfl)
      · exact old
      · exact (h.mem_iff b).mp here
  · intro b c first second before
    rwa [List.idxOf_append_of_mem ((h.mem_iff b).mp first), List.idxOf_append_of_mem ((h.mem_iff c).mp second)]

theorem added {all firsts : List String} {a : String} (h : FirstOccurrences all firsts) (fresh : a ∉ firsts) :
    FirstOccurrences (all ++ [a]) (firsts ++ [a]) := by
  have later : a ∉ all := fun old => fresh ((h.mem_iff a).mpr old)
  refine ⟨?_, fun b => ?_, ?_⟩
  · exact List.nodup_append.mpr ⟨h.nodup, List.nodup_singleton a, by
      rintro b member c single rfl
      rw [List.mem_singleton.mp single] at member
      exact fresh member⟩
  · rw [List.mem_append, List.mem_append, h.mem_iff]
  · refine List.pairwise_append.mpr ⟨h.inOrder.imp_of_mem ?_, List.pairwise_singleton _ _, ?_⟩
    · intro b c first second before
      rwa [List.idxOf_append_of_mem ((h.mem_iff b).mp first), List.idxOf_append_of_mem ((h.mem_iff c).mp second)]
    · intro b first c single
      have old := (h.mem_iff b).mp first
      rw [List.mem_singleton.mp single, List.idxOf_append_of_mem old, List.idxOf_append_of_notMem later]
      have bound := List.idxOf_lt_length_iff.mpr old
      omega

theorem collected {all firsts : List String} (h : FirstOccurrences all firsts) (more : List String) :
    FirstOccurrences (all ++ more)
      (more.foldl (fun acc c => if acc.contains c then acc else acc ++ [c]) firsts) := by
  induction more generalizing all firsts with
  | nil => simpa using h
  | cons a rest ih =>
    rw [List.foldl_cons, List.append_cons]
    by_cases here : a ∈ firsts
    · rw [if_pos (List.contains_iff_mem.mpr here)]
      exact ih (h.known here)
    · rw [if_neg fun found => here (List.contains_iff_mem.mp found)]
      exact ih (h.added here)

end FirstOccurrences

namespace Converge

variable (host : Host σ) (w : World σ)

theorem run_notify (command : String) :
    w.run (notify host command) =
      (.ofReply command (host.answer (.notification w.context.env command) w.machine).1,
        w.after host (.notification w.context.env command)) := by
  have started : w.run (runCommand host command none none []) =
      ((host.answer (.notification w.context.env command) w.machine).1,
        w.after host (.notification w.context.env command)) := rfl
  simp only [notify, World.run_bind, started, NotificationReport.ofReply]
  rcases (host.answer (.notification w.context.env command) w.machine).1 with fault | output
  · rfl
  · by_cases h : output.succeeded = true
    · simp [h]
    · simp [h]

def asked (resources : List Resource) (reports : List ResourceReport) : List String :=
  (resources.zip reports).flatMap fun (r, x) => if x.outcome.isChange then r.notifies else []

theorem mem_asked {resources : List Resource} {reports : List ResourceReport} {command : String} :
    command ∈ asked resources reports ↔
      ∃ r x, (r, x) ∈ resources.zip reports ∧ x.outcome.isChange = true ∧ command ∈ r.notifies := by
  simp only [asked, List.mem_flatMap, Prod.exists]
  constructor
  · rintro ⟨r, x, member, asks⟩
    by_cases change : x.outcome.isChange = true
    · rw [if_pos change] at asks
      exact ⟨r, x, member, change, asks⟩
    · rw [if_neg change] at asks
      cases asks
  · rintro ⟨r, x, member, change, asks⟩
    exact ⟨r, x, member, by rwa [if_pos change]⟩

theorem due_firsts (resources : List Resource) (reports : List ResourceReport) :
    FirstOccurrences (asked resources reports) (due resources reports) :=
  FirstOccurrences.collected .nil (asked resources reports)

theorem mem_due {resources : List Resource} {reports : List ResourceReport} {command : String} :
    command ∈ due resources reports ↔
      ∃ r x, (r, x) ∈ resources.zip reports ∧ x.outcome.isChange = true ∧ command ∈ r.notifies :=
  ((due_firsts resources reports).mem_iff command).trans mem_asked

theorem run_notifyAll_cons (command : String) (rest : List String) :
    w.run (notifyAll host (command :: rest)) =
      if (w.run (notify host command)).1.success = true then
        ((w.run (notify host command)).1 :: ((w.run (notify host command)).2.run (notifyAll host rest)).1,
          ((w.run (notify host command)).2.run (notifyAll host rest)).2)
      else ([(w.run (notify host command)).1], (w.run (notify host command)).2) := by
  simp only [notifyAll, World.run_bind]
  split <;> rfl

/-- Commands that end well, then possibly one that does not and is the last. -/
inductive Ended : List String → List NotificationReport → Prop
  | all (commands : List String) : Ended commands (commands.map (⟨·, true, ""⟩))
  | cut (before : List String) (bad : String) (after : List String) (detail : String) :
    Ended (before ++ bad :: after) (before.map (⟨·, true, ""⟩) ++ [⟨bad, false, detail⟩])

theorem Ended.cons {commands : List String} {reports : List NotificationReport} (command : String)
    (h : Ended commands reports) : Ended (command :: commands) (⟨command, true, ""⟩ :: reports) := by
  rcases h with _ | ⟨before, bad, after, detail⟩
  · exact .all (command :: commands)
  · exact .cut (command :: before) bad after detail

theorem notifyAll_ended (commands : List String) :
    Ended commands (w.run (notifyAll host commands)).1 := by
  induction commands generalizing w with
  | nil => exact .all []
  | cons command rest ih =>
    rw [run_notifyAll_cons, run_notify]
    by_cases ok : (NotificationReport.ofReply command
        (host.answer (.notification w.context.env command) w.machine).1).success = true
    · rw [if_pos ok]
      simp only [NotificationReport.eq_of_success ok]
      exact (ih _).cons command
    · rw [if_neg ok]
      obtain ⟨detail, report⟩ := NotificationReport.eq_of_failure (Bool.eq_false_iff.mpr ok)
      simp only [report]
      exact .cut [] command rest detail

theorem notifyAll_calls (commands : List String) :
    (w.run (notifyAll host commands)).2.calls =
      w.calls ++ (w.run (notifyAll host commands)).1.map (.notification w.context.env ·.command) := by
  induction commands generalizing w with
  | nil => simp [notifyAll]
  | cons command rest ih =>
    rw [run_notifyAll_cons, run_notify]
    split
    · simp [ih, NotificationReport.ofReply_command]
    · simp [NotificationReport.ofReply_command]

variable {host w}

theorem Ended.all_of_success {commands : List String} {reports : List NotificationReport}
    (h : Ended commands reports) (ok : ∀ n ∈ reports, n.success = true) :
    reports = commands.map (⟨·, true, ""⟩) := by
  rcases h with _ | ⟨before, bad, after, detail⟩
  · rfl
  · have := ok ⟨bad, false, detail⟩ (by simp)
    cases this

theorem Ended.failed {commands : List String} {reports : List NotificationReport}
    (h : Ended commands reports) (bad : ∃ n ∈ reports, n.success = false) :
    ∃ n, reports.getLast? = some n ∧ n.success = false ∧ reports.find? (!·.success) = some n := by
  rcases h with _ | ⟨before, command, after, detail⟩
  · obtain ⟨n, member, failed⟩ := bad
    obtain ⟨command, -, rfl⟩ := List.mem_map.mp member
    cases failed
  · refine ⟨⟨command, false, detail⟩, by simp, rfl, ?_⟩
    have none : (before.map fun c => (⟨c, true, ""⟩ : NotificationReport)).find? (!·.success) = none := by
      simp
    rw [List.find?_append, none]
    rfl

end Converge

end Provision
