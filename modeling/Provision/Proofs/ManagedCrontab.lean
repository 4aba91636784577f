import Provision.Proofs.CrontabText

namespace Provision.Crontab

open Text

/-- The last of the jobs of each name, in the order in which they were installed. -/
def latest : List Job → List Job
  | [] => []
  | job :: later => if later.any (·.name == job.name) then latest later else job :: latest later

/-- The lines that belong to no job: neither a marker nor the line after one. -/
def otherLines : List String → List String
  | [] => []
  | line :: rest =>
    if startsWith markerLead line then
      match rest with
      | [] => []
      | _ :: rest => otherLines rest
    else line :: otherLines rest

/-- What there is to see in lines: blank ones are left out, and blanks at their ends. -/
def visible (ls : List String) : List String := (ls.map trimEnd).filter (· ≠ "")

/-- A job of the user that can be kept in a crontab. -/
structure Fit (user : String) (job : Job) : Prop where
  owner : job.user = user
  named : job.name ≠ ""
  single : SingleLine job.name
  trimmed : trim job.name = job.name
  oneLine : job.OneLine
  unmarked : startsWith markerLead (jobLine job) = false

instance (user : String) (job : Job) : Decidable (Fit user job) :=
  decidable_of_iff (job.user = user ∧ job.name ≠ "" ∧ SingleLine job.name ∧ trim job.name = job.name ∧ job.OneLine ∧
      startsWith markerLead (jobLine job) = false)
    ⟨fun ⟨owner, named, single, trimmed, oneLine, unmarked⟩ => ⟨owner, named, single, trimmed, oneLine, unmarked⟩,
      fun fit => ⟨fit.owner, fit.named, fit.single, fit.trimmed, fit.oneLine, fit.unmarked⟩⟩

theorem mem_latest {jobs : List Job} {job : Job} :
    job ∈ latest jobs ↔ ∃ before later, jobs = before ++ job :: later ∧ ∀ other ∈ later, other.name ≠ job.name := by
  induction jobs with
  | nil => simp [latest]
  | cons first rest ih =>
    have repeated : (rest.any (·.name == first.name)) = true ↔ ∃ other ∈ rest, other.name = first.name := by simp
    constructor
    · intro member
      unfold latest at member
      split at member
      · obtain ⟨before, later, rfl, last⟩ := ih.mp member
        exact ⟨first :: before, later, rfl, last⟩
      · rename_i single
        rcases List.mem_cons.mp member with rfl | member
        · exact ⟨[], rest, rfl, fun other member same => single (repeated.mpr ⟨other, member, same⟩)⟩
        · obtain ⟨before, later, rfl, last⟩ := ih.mp member
          exact ⟨first :: before, later, rfl, last⟩
    · rintro ⟨before, later, whole, last⟩
      unfold latest
      rcases before with _ | ⟨b, before⟩
      · cases whole
        split
        · rename_i again
          obtain ⟨other, member, same⟩ := repeated.mp again
          exact absurd same (last other member)
        · exact List.mem_cons_self
      · cases whole
        have there := ih.mpr ⟨before, later, rfl, last⟩
        split
        · exact there
        · exact List.mem_cons_of_mem _ there

theorem latest_sublist (jobs : List Job) : (latest jobs).Sublist jobs := by
  induction jobs with
  | nil => exact .slnil
  | cons job later ih =>
    unfold latest
    split
    · exact ih.cons job
    · exact ih.cons_cons job

theorem latest_distinct (jobs : List Job) : (latest jobs).Pairwise fun a b => a.name ≠ b.name := by
  induction jobs with
  | nil => exact .nil
  | cons job later ih =>
    unfold latest
    split
    · exact ih
    · rename_i last
      refine List.pairwise_cons.mpr ⟨fun other member same => last ?_, ih⟩
      exact List.any_eq_true.mpr ⟨other, (latest_sublist later).subset member, by simp [same]⟩

def install (jobs : List Job) (job : Job) : List Job := jobs.filter (·.name != job.name) ++ [job]

theorem foldl_install (jobs installed : List Job) :
    jobs.foldl install installed = installed.filter (fun old => !jobs.any (·.name == old.name)) ++ latest jobs := by
  induction jobs generalizing installed with
  | nil => simp [latest]
  | cons job later ih =>
    have both : ∀ old : Job, (!later.any (·.name == old.name) && old.name != job.name) =
        !((job :: later).any (·.name == old.name)) := by
      intro old
      rw [List.any_cons, Bool.not_or, Bool.and_comm, bne_comm]
      rfl
    rw [List.foldl_cons, ih, install, List.filter_append, List.filter_filter, List.append_assoc]
    simp only [both]
    have step : latest (job :: later) =
        if later.any (·.name == job.name) then latest later else job :: latest later := rfl
    rw [step]
    congr 1
    by_cases again : later.any (·.name == job.name) = true
    · simp only [again, List.filter_cons_of_neg, Bool.not_true, Bool.false_eq_true, not_false_eq_true, List.filter_nil,
        List.nil_append, if_true]
    · simp only [Bool.eq_false_iff.mpr again, Bool.not_false, List.filter_cons_of_pos, List.filter_nil,
        List.singleton_append, Bool.false_eq_true, if_false]

theorem foldl_install_nil (jobs : List Job) : jobs.foldl install [] = latest jobs := by
  rw [foldl_install]
  rfl

def block (job : Job) : List String := [marker job.name, jobLine job]

/-- Lines of no job, and then jobs. -/
structure Arranged (text : String) (others : List String) (jobs : List Job) : Prop where
  layout : lines text = others ++ jobs.flatMap block
  unmarked : ∀ line ∈ others, startsWith markerLead line = false

variable {user text : String} {others : List String} {jobs : List Job} {job : Job}

theorem Fit.nameable (fit : Fit user job) : Nameable job.name :=
  ⟨fit.named, fit.single, trimEnd_of_trim fit.trimmed⟩

theorem jobsOf_unmarked (rest : List String) (unmarked : ∀ line ∈ others, startsWith markerLead line = false) :
    jobsOf user (others ++ rest) = jobsOf user rest := by
  induction others with
  | nil => rfl
  | cons line others ih =>
    rw [List.cons_append, jobsOf_other _ (unmarked line List.mem_cons_self)]
    exact ih fun line member => unmarked line (List.mem_cons_of_mem _ member)

theorem jobsOf_blocks (fits : ∀ job ∈ jobs, Fit user job) : jobsOf user (jobs.flatMap block) = jobs := by
  induction jobs with
  | nil => rfl
  | cons job jobs ih =>
    have fit := fits job List.mem_cons_self
    have later := ih fun job member => fits job (List.mem_cons_of_mem _ member)
    have whole : (job :: jobs).flatMap block = marker job.name :: jobLine job :: jobs.flatMap block := rfl
    rw [whole, jobsOf_pair _ _ (startsWith_marker _), later, jobsOf_installed fit.oneLine fit.owner fit.trimmed]
    rfl

theorem otherLines_unmarked (rest : List String) (unmarked : ∀ line ∈ others, startsWith markerLead line = false) :
    otherLines (others ++ rest) = others ++ otherLines rest := by
  induction others with
  | nil => rfl
  | cons line others ih =>
    have later := ih fun line member => unmarked line (List.mem_cons_of_mem _ member)
    rw [List.cons_append, otherLines.eq_def]
    simp [unmarked line List.mem_cons_self, later]

theorem otherLines_blocks (jobs : List Job) : otherLines (jobs.flatMap block) = [] := by
  induction jobs with
  | nil => rfl
  | cons job jobs ih =>
    have whole : (job :: jobs).flatMap block = marker job.name :: jobLine job :: jobs.flatMap block := rfl
    rw [whole, otherLines.eq_def]
    simp [startsWith_marker, ih]

theorem dropManaged_blocks {name : String} (fits : ∀ job ∈ jobs, Fit user job) :
    dropManaged (marker name) (jobs.flatMap block) = (jobs.filter (·.name != name)).flatMap block := by
  induction jobs with
  | nil => rfl
  | cons job jobs ih =>
    have fit := fits job List.mem_cons_self
    have later := ih fun job member => fits job (List.mem_cons_of_mem _ member)
    have whole : (job :: jobs).flatMap block = marker job.name :: jobLine job :: jobs.flatMap block := rfl
    have ended := (trimEnd_marker_iff fit.named).mpr fit.nameable.ended
    by_cases same : job.name = name
    · subst same
      rw [whole, dropManaged.eq_def]
      simp [ended, later]
    · have other : trimEnd (marker job.name) ≠ marker name := by
        rw [ended]
        exact fun equal => same (marker_injective equal)
      have plain : trimEnd (jobLine job) ≠ marker name := by
        intro equal
        have marked := startsWith_of_trimEnd equal
        rw [fit.unmarked] at marked
        cases marked
      rw [whole, dropManaged_other _ other, dropManaged_other _ plain, later]
      simp [same, block]

theorem unmarked_readBack (unmarked : ∀ line ∈ others, startsWith markerLead line = false) :
    ∀ line ∈ others.map readBack, startsWith markerLead line = false := by
  intro line member
  obtain ⟨there, present, rfl⟩ := List.mem_map.mp member
  refine Bool.eq_false_iff.mpr fun marked => ?_
  have longer := startsWith_iff.mpr ((startsWith_iff.mp marked).trans (readBack_isPrefix there))
  rw [unmarked there present] at longer
  cases longer

theorem visible_readBack (ls : List String) : visible (ls.map readBack) = visible ls := by
  have same : ls.map (trimEnd ∘ readBack) = ls.map trimEnd := List.map_congr_left fun line _ => trimEnd_readBack line
  rw [visible, List.map_map, same, visible]

theorem blocks_readBack (fits : ∀ job ∈ jobs, Fit user job) :
    (jobs.flatMap block).map readBack = jobs.flatMap block := by
  have tidy : ∀ line ∈ jobs.flatMap block, TidyLine line := by
    intro line member
    obtain ⟨job, present, here⟩ := List.mem_flatMap.mp member
    have fit := fits job present
    rcases List.mem_cons.mp here with rfl | here
    · exact fit.nameable.tidy
    · rw [List.mem_singleton.mp here]
      exact jobLine_tidy fit.oneLine
  exact (map_readBack_eq_self_iff fun line member => (tidy line member).single).mpr tidy

theorem blank_of_append (blank : others ++ jobs.flatMap block = [""]) : others = [""] ∧ jobs.flatMap block = [] := by
  cases jobs with
  | nil => exact ⟨by simpa using blank, rfl⟩
  | cons job jobs =>
    have length := congrArg List.length blank
    simp only [List.length_append, List.flatMap_cons, block, List.length_cons, List.length_nil] at length
    omega

theorem Arranged.keptLines (arranged : Arranged text others jobs) (fits : ∀ job ∈ jobs, Fit user job) (name : String) :
    ∃ left, visible left = visible others ∧ (∀ line ∈ left, startsWith markerLead line = false) ∧
      (keptLines text name).map readBack = left ++ (jobs.filter (·.name != name)).flatMap block := by
  have foreign : ∀ line ∈ others, trimEnd line ≠ marker name := by
    intro line member same
    have marked := startsWith_of_trimEnd same
    rw [arranged.unmarked line member] at marked
    cases marked
  have kept : dropManaged (marker name) (lines text) = others ++ (jobs.filter (·.name != name)).flatMap block := by
    rw [arranged.layout, dropManaged_append _ foreign, dropManaged_blocks fits]
  have remaining : ∀ job ∈ jobs.filter (·.name != name), Fit user job :=
    fun job member => fits job (List.mem_filter.mp member).1
  unfold Crontab.keptLines
  rw [kept]
  by_cases blank : others ++ (jobs.filter (·.name != name)).flatMap block = [""]
  · obtain ⟨only, none⟩ := blank_of_append blank
    rw [if_pos blank, only, none]
    exact ⟨[], rfl, by simp, rfl⟩
  · refine ⟨others.map readBack, visible_readBack others, unmarked_readBack arranged.unmarked, ?_⟩
    rw [if_neg blank, List.map_append, blocks_readBack remaining]

theorem Arranged.upsert (arranged : Arranged text others jobs) (fits : ∀ job ∈ jobs, Fit user job) (fit : Fit user job) :
    ∃ left, visible left = visible others ∧ Arranged (upsert text job) left (install jobs job) := by
  obtain ⟨left, same, unmarked, kept⟩ := arranged.keptLines fits job.name
  refine ⟨left, same, ?_, unmarked⟩
  rw [lines_upsert_of_nameable text fit.oneLine fit.nameable, kept, install, List.flatMap_append, List.append_assoc]
  rfl

theorem Arranged.upserts (arranged : Arranged text others jobs) (fits : ∀ job ∈ jobs, Fit user job) {more : List Job}
    (moreFit : ∀ job ∈ more, Fit user job) :
    ∃ left, visible left = visible others ∧ Arranged (more.foldl Crontab.upsert text) left (more.foldl install jobs) := by
  induction more generalizing text others jobs with
  | nil => exact ⟨others, rfl, arranged⟩
  | cons job more ih =>
    have fit := moreFit job List.mem_cons_self
    obtain ⟨left, same, after⟩ := arranged.upsert fits fit
    have installedFit : ∀ old ∈ install jobs job, Fit user old := by
      intro old member
      rcases List.mem_append.mp member with there | new
      · exact fits old (List.mem_filter.mp there).1
      · rw [List.mem_singleton.mp new]
        exact fit
    obtain ⟨last, still, final⟩ := ih after installedFit fun job member => moreFit job (List.mem_cons_of_mem _ member)
    rw [List.foldl_cons, List.foldl_cons]
    exact ⟨last, still.trans same, final⟩

/-- In a crontab without markers jobs are installed one after the other. Then the jobs that are read are the last of
each name, in the order in which they were installed, and all other lines are those of the start. -/
theorem upserts_keep_latest {user text : String} {jobs : List Job}
    (unmarked : ∀ line ∈ lines text, startsWith markerLead line = false) (fits : ∀ job ∈ jobs, Fit user job) :
    parseJobs user (jobs.foldl upsert text) = latest jobs ∧
      visible (otherLines (lines (jobs.foldl upsert text))) = visible (lines text) := by
  have start : Arranged text (lines text) [] := ⟨(List.append_nil _).symm, unmarked⟩
  obtain ⟨left, same, final⟩ := start.upserts (by simp) fits
  rw [foldl_install_nil] at final
  have latestFit : ∀ job ∈ latest jobs, Fit user job := fun job member => fits job ((latest_sublist jobs).subset member)
  constructor
  · rw [parseJobs, final.layout, jobsOf_unmarked _ final.unmarked, jobsOf_blocks latestFit]
  · rw [final.layout, otherLines_unmarked _ final.unmarked, otherLines_blocks, List.append_nil, same]

def installs : List Job :=
  [⟨"wp", "root", {}, "true"⟩, ⟨"backup", "root", {}, "dump"⟩, ⟨"wp", "root", { minute := "*/5" }, "php cron.php"⟩]

theorem upserts_keep_latest_twice :
    parseJobs "root" (installs.foldl upsert "MAILTO=ops\n\n0 3 * * * rotate \n") = installs.drop 1 ∧
      visible (otherLines (lines (installs.foldl upsert "MAILTO=ops\n\n0 3 * * * rotate \n"))) =
        ["MAILTO=ops", "0 3 * * * rotate"] := by
  have unmarked : ∀ line ∈ lines "MAILTO=ops\n\n0 3 * * * rotate \n", startsWith markerLead line = false := by
    decide +kernel
  have fits : ∀ job ∈ installs, Fit "root" job := by decide +kernel
  obtain ⟨jobs, others⟩ := upserts_keep_latest unmarked fits
  have last : latest installs = installs.drop 1 := by decide +kernel
  have seen : visible (lines "MAILTO=ops\n\n0 3 * * * rotate \n") = ["MAILTO=ops", "0 3 * * * rotate"] := by
    decide +kernel
  rw [jobs, others]
  exact ⟨last, seen⟩

end Provision.Crontab
