import Provision.Machine.Basic
import Provision.Proofs.RunOrder
import Provision.Proofs.ScheduleText

namespace Provision

open Text

namespace Crontab

def linesBefore (text : String) (job : Job) : List String :=
  (keptLines text job.name).map readBack ++ [marker job.name]

/-- Once installed, the job is the first that is read under its name: the name reads as it was written, and either the
same job stood there before, or none of its name did and the job line is read as that of a marker. -/
def FoundFirst (text : String) (job : Job) : Prop :=
  SingleLine job.name ∧ trim job.name = job.name ∧
    ((jobsOf job.user (linesBefore text job)).find? (·.name == job.name) = some job ∨
      (jobsOf job.user (linesBefore text job)).find? (·.name == job.name) = none ∧
        awaitsJob (linesBefore text job) = true)

/-- Once installed, the job can be installed again with the same crontab: its marker is found again, and no line that is
kept ends in a carriage return. -/
def InstalledForGood (text : String) (job : Job) : Prop :=
  SingleLine job.name ∧ trimEnd job.name = job.name ∧ ∀ line ∈ keptLines text job.name, TidyLine line

variable {text : String} {job : Job}

theorem parseJobs_upsert (one : job.OneLine) (nameable : Nameable job.name) (trimmed : trim job.name = job.name) :
    parseJobs job.user (upsert text job) =
      jobsOf job.user (linesBefore text job) ++ if awaitsJob (linesBefore text job) then [job] else [] := by
  have whole : lines (upsert text job) = linesBefore text job ++ [jobLine job] := by
    rw [lines_upsert_of_nameable text one nameable, linesBefore, List.append_assoc]
    rfl
  have awaits := awaitsJob_concat ((keptLines text job.name).map readBack) (marker job.name)
  rw [startsWith_marker, Bool.and_true] at awaits
  change awaitsJob (linesBefore text job) = _ at awaits
  rw [parseJobs, awaits]
  cases settled : awaitsJob ((keptLines text job.name).map readBack) with
  | true =>
    rw [settled] at awaits
    rw [whole, jobsOf_append _ _ awaits, jobsOf_single]
    rfl
  | false =>
    rw [lines_upsert_of_nameable text one nameable, linesBefore, jobsOf_append _ _ settled, jobsOf_append _ _ settled,
      jobsOf_single, jobsOf_installed one rfl trimmed, List.append_nil]
    rfl

variable (text) in
theorem find_upsert_iff (one : job.OneLine) (filled : job.name ≠ "") :
    (parseJobs job.user (upsert text job)).find? (·.name == job.name) = some job ↔ FoundFirst text job := by
  constructor
  · intro found
    have listed := List.mem_of_find?_eq_some found
    obtain ⟨single, trimmed⟩ := jobsOf_named (fun line => lines_single) job listed
    rw [parseJobs_upsert one ⟨filled, single, trimEnd_of_trim trimmed⟩ trimmed, List.find?_append] at found
    refine ⟨single, trimmed, ?_⟩
    cases before : (jobsOf job.user (linesBefore text job)).find? (·.name == job.name) with
    | some other =>
      rw [before, Option.some_or] at found
      exact Or.inl found
    | none =>
      rw [before, Option.none_or] at found
      refine Or.inr ⟨rfl, ?_⟩
      by_cases awaits : awaitsJob (linesBefore text job) = true
      · exact awaits
      · rw [if_neg awaits] at found
        cases found
  · rintro ⟨single, trimmed, before⟩
    rw [parseJobs_upsert one ⟨filled, single, trimEnd_of_trim trimmed⟩ trimmed, List.find?_append]
    rcases before with same | ⟨none, awaits⟩
    · rw [same, Option.some_or]
    · rw [none, Option.none_or, awaits]
      simp

theorem nameable_of_managed {name line : String} (filled : name ≠ "") (single : SingleLine line)
    (managed : trimEnd line = marker name) : Nameable name := by
  have ended : trimEnd (marker name) = marker name := by
    rw [← managed, trimEnd_eq_self_iff, trimEnd, String.toList_ofList]
    exact trimEndChars_idem line.toList
  refine ⟨filled, ?_, (trimEnd_marker_iff filled).mp ended⟩
  have shorter := trimEnd_isPrefix line
  rw [managed, marker_toList] at shorter
  exact fun member => single (shorter.subset (List.mem_append_right _ member))

theorem jobLine_ne_empty (one : job.OneLine) : jobLine job ≠ "" := by
  intro empty
  have command := congrArg String.toList empty
  rw [jobLine, String.toList_append] at command
  exact one.filled (String.toList_eq_nil_iff.mp (List.append_eq_nil_iff.mp command).2)

theorem nameable_of_upsert_again (one : job.OneLine) (filled : job.name ≠ "")
    (again : upsert (upsert text job) job = upsert text job) : Nameable job.name := by
  by_contra unnamed
  have foreign : ∀ line ∈ lines (upsert text job), trimEnd line ≠ marker job.name :=
    fun line member managed => unnamed (nameable_of_managed filled (lines_single member) managed)
  have last : jobLine job ∈ lines (upsert text job) := by
    rw [lines_upsert text one]
    exact List.mem_append_right _ List.mem_cons_self
  have notBlank : lines (upsert text job) ≠ [""] := by
    intro blank
    rw [blank] at last
    exact jobLine_ne_empty one (List.mem_singleton.mp last)
  have kept : keptLines (upsert text job) job.name = lines (upsert text job) := by
    rw [keptLines, dropManaged_eq_self foreign, if_neg notBlank]
  have longer : (lines (upsert (upsert text job) job)).length = (lines (upsert text job)).length := by rw [again]
  rw [lines_upsert (upsert text job) one, kept] at longer
  simp only [List.length_append, List.length_map, List.length_singleton] at longer
  omega

theorem keptLines_upsert (one : job.OneLine) (nameable : Nameable job.name) :
    keptLines (upsert text job) job.name =
      if (keptLines text job.name).map readBack = [""] then [] else (keptLines text job.name).map readBack := by
  have foreign : ∀ line ∈ (keptLines text job.name).map readBack, trimEnd line ≠ marker job.name := by
    intro line member
    obtain ⟨there, present, rfl⟩ := List.mem_map.mp member
    rw [trimEnd_readBack]
    exact (mem_keptLines present).2
  have own : dropManaged (marker job.name) [marker job.name, jobLine job] = [] := by
    have ended := (trimEnd_marker_iff nameable.filled).mpr nameable.ended
    rw [dropManaged.eq_def]
    simp [ended, dropManaged]
  rw [keptLines, lines_upsert_of_nameable text one nameable, dropManaged_append _ foreign, own, List.append_nil]

theorem keptLines_ne_blank (text name : String) : keptLines text name ≠ [""] := by
  unfold keptLines
  by_cases blank : dropManaged (marker name) (lines text) = [""]
  · rw [if_pos blank]
    simp
  · rwa [if_neg blank]

theorem upsert_again_iff (one : job.OneLine) (filled : job.name ≠ "") :
    upsert (upsert text job) job = upsert text job ↔ InstalledForGood text job := by
  have single (text : String) : ∀ line ∈ keptLines text job.name, SingleLine line :=
    fun line member => (mem_keptLines member).1
  have notBlank := keptLines_ne_blank text job.name
  constructor
  · intro again
    have nameable := nameable_of_upsert_again one filled again
    refine ⟨nameable.single, nameable.ended, (map_readBack_eq_self_iff (single text)).mp ?_⟩
    have texts := (upsert_eq (upsert text job) job).symm.trans (again.trans (upsert_eq text job))
    rw [String.append_left_inj, String.append_left_inj] at texts
    have same := written_injective (single (upsert text job)) (single text) texts
    rw [keptLines_upsert one nameable] at same
    by_cases blank : (keptLines text job.name).map readBack = [""]
    · rw [if_pos blank] at same
      rw [← same] at blank
      cases blank
    · rwa [if_neg blank] at same
  · rintro ⟨lone, ended, tidy⟩
    have same := (map_readBack_eq_self_iff (single text)).mpr tidy
    rw [upsert_eq, keptLines_upsert one ⟨filled, lone, ended⟩, same, if_neg notBlank]
    exact (upsert_eq text job).symm

end Crontab

namespace ScheduledJob

open Crontab

variable {j : ScheduledJob} {σ : Type} {host : Host σ} {w : World σ}

@[simp] theorem entry_name (name : String) : (j.entry name).name = name := rfl

@[simp] theorem entry_user (name : String) : (j.entry name).user = j.user := rfl

theorem entry_oneLine (fit : j.problem? = none) (name : String) : (j.entry name).OneLine := by
  obtain ⟨schedule, filled, single⟩ := problem?_eq_none_iff.mp fit
  exact ⟨schedule, trim_ne_empty filled, trim_single single, trim_trim j.command⟩

theorem apply_unchanged_iff {name : String} {jobs : List Job} (read : (host.answer (.jobs j.user) w.machine).1 = .ok jobs) :
    (w.run (j.apply host name).run).1 = .ok .unchanged ↔ jobs.find? (·.name == name) = some (j.entry name) := by
  have looked : w.run (j.installed host name).run =
      (.ok (jobs.find? (·.name == name)), w.after host (.jobs j.user)) :=
    (installed_eq_ok host).mpr ⟨jobs, read, rfl, rfl⟩
  have step : w.run (j.apply host name).run = _ := World.try_bind w (j.installed host name) _
  rw [step, looked]
  dsimp only
  by_cases same : jobs.find? (·.name == name) = some (j.entry name)
  · rw [if_pos same]
    exact iff_of_true rfl same
  · rw [if_neg same]
    refine iff_of_false ?_ same
    rw [World.try_bind]
    split
    · simp
    · simp

/-- What becomes of a job of a valid list in a crontab, whatever the crontab was. -/
theorem settles_iff {l : RunList} {scope : NameScope} (valid : l.validate scope = .ok ()) {r : Resource}
    (member : r ∈ l.resources) (spec : r.spec = .scheduledJob j) (text : String) :
    ((parseJobs j.user (upsert text (j.entry r.name))).find? (·.name == r.name) = some (j.entry r.name) ↔
        FoundFirst text (j.entry r.name)) ∧
      (upsert (upsert text (j.entry r.name)) (j.entry r.name) = upsert text (j.entry r.name) ↔
        InstalledForGood text (j.entry r.name)) ∧
      ∀ (σ : Type) (host : Host σ) (w : World σ),
        (host.answer (.jobs j.user) w.machine).1 = .ok (parseJobs j.user (upsert text (j.entry r.name))) →
        ((w.run (r.spec.apply host r.name).run).1 = .ok .unchanged ↔ FoundFirst text (j.entry r.name)) := by
  have fit : j.problem? = none := by
    have fine := RunList.fit_of_valid valid r member
    rw [spec] at fine
    exact fine
  have one := entry_oneLine fit r.name
  have filled : r.name ≠ "" := by
    intro empty
    have blank : isBlankText "" = true := by decide +kernel
    have named := RunList.named_of_valid valid r member
    rw [empty, blank] at named
    cases named
  have found := find_upsert_iff text one filled
  rw [entry_user, entry_name] at found
  refine ⟨found, upsert_again_iff one filled, ?_⟩
  intro σ host w read
  rw [spec]
  exact (apply_unchanged_iff read).trans found

def cronJob : ScheduledJob := { schedule := { minute := "*/5" }, command := " php cron.php " }

def cronResource (name : String) : Resource := { name, spec := .scheduledJob cronJob }

def cronText : String := "MAILTO=ops\n# steward: old\n0 1 * * * rotate\n"

theorem settles_iff_beside :
    (parseJobs "root" (upsert cronText (cronJob.entry "wp"))).find? (·.name == "wp") = some (cronJob.entry "wp") ∧
      upsert (upsert cronText (cronJob.entry "wp")) (cronJob.entry "wp") = upsert cronText (cronJob.entry "wp") ∧
      ∃ w : World Machine, (w.run ((cronResource "wp").spec.apply Machine.host "wp").run).1 = .ok .unchanged := by
  have valid : (RunList.mk [.ofResource (cronResource "wp") []]).validate .perKind = .ok () := by rfl
  have first : FoundFirst cronText (cronJob.entry "wp") :=
    ⟨by decide +kernel, by decide +kernel, Or.inr ⟨by decide +kernel, by decide +kernel⟩⟩
  have tidy : ∀ line ∈ keptLines cronText "wp", TidyLine line :=
    (map_readBack_eq_self_iff fun line member => (mem_keptLines member).1).mp (by decide +kernel)
  have good : InstalledForGood cronText (cronJob.entry "wp") := ⟨by decide +kernel, by decide +kernel, tidy⟩
  obtain ⟨found, again, unchanged⟩ := settles_iff (r := cronResource "wp") valid List.mem_cons_self rfl cronText
  let listed : World Machine :=
    ⟨{ Machine.empty with jobs := parseJobs "root" (upsert cronText (cronJob.entry "wp")) },
      ⟨false, false, .empty, .object [], .warn, []⟩, [], []⟩
  have read : (Machine.host.answer (.jobs "root") listed.machine).1 =
      .ok (parseJobs "root" (upsert cronText (cronJob.entry "wp"))) := by decide +kernel
  exact ⟨found.mpr first, again.mpr good, listed, (unchanged Machine Machine.host listed read).mpr first⟩

/-- A name that ends in a blank is read without it. The job is never found, and every installation adds two lines. -/
theorem not_settles_padded :
    (RunList.mk [.ofResource (cronResource "wp ") []]).validate .perKind = .ok () ∧
      (parseJobs "root" (upsert "" (cronJob.entry "wp "))).find? (·.name == "wp ") ≠ some (cronJob.entry "wp ") ∧
      upsert (upsert "" (cronJob.entry "wp ")) (cronJob.entry "wp ") ≠ upsert "" (cronJob.entry "wp ") := by
  have one : (cronJob.entry "wp ").OneLine := entry_oneLine (by rfl) "wp "
  have filled : (cronJob.entry "wp ").name ≠ "" := by decide
  have padded : trim "wp " ≠ "wp " ∧ trimEnd "wp " ≠ "wp " := by decide +kernel
  refine ⟨by rfl, fun found => ?_, fun again => ?_⟩
  · obtain ⟨-, trimmed, -⟩ := (find_upsert_iff "" one filled).mp found
    exact padded.1 trimmed
  · obtain ⟨-, ended, -⟩ := (upsert_again_iff one filled).mp again
    exact padded.2 ended

example : parseJobs "root" (upsert "# steward: old\n" (cronJob.entry "wp")) = [] := by decide +kernel

/-- A marker in another spelling stays, with its job. -/
example : (parseJobs "root" (upsert "# steward:  wp\n0 1 * * * old\n" (cronJob.entry "wp"))).map (·.command) =
    ["old", "php cron.php"] := by
  decide +kernel

end ScheduledJob

end Provision
