import Provision.Proofs.CrontabSettling
import Provision.Proofs.ManagedCrontab

namespace Provision

namespace Text

theorem trimEnd_idem (s : String) : trimEnd (trimEnd s) = trimEnd s := by
  rw [trimEnd_eq_self_iff, trimEnd, String.toList_ofList]
  exact trimEndChars_idem s.toList

theorem trimEnd_append_blanks (s : String) :
    ∃ blanks, s.toList = (trimEnd s).toList ++ blanks ∧ ∀ c ∈ blanks, isBlank c = true := by
  refine ⟨(s.toList.reverse.takeWhile isBlank).reverse, ?_, ?_⟩
  · have parts := congrArg List.reverse (List.takeWhile_append_dropWhile (p := isBlank) (l := s.toList.reverse))
    rw [List.reverse_append, List.reverse_reverse] at parts
    rw [trimEnd, String.toList_ofList]
    exact parts.symm
  · exact fun c member => List.mem_takeWhile_imp (List.mem_reverse.mp member)

end Text

namespace Crontab

open Text

/-- The lines that are neither the marker nor a job line right behind it; the flag says whether the marker stands in
front of them. -/
def unrelated (mark : String) : (behind : Bool) → List String → List String
  | _, [] => []
  | behind, line :: rest =>
    if trimEnd line = mark then unrelated mark true rest
    else if behind && (readJobLine? line).isSome then unrelated mark false rest
    else line :: unrelated mark false rest

/-- The lines that go with the marker although they are neither the marker again nor a job line. -/
def swept (mark : String) : List String → List String
  | [] => []
  | line :: rest =>
    if trimEnd line = mark then
      match rest with
      | [] => []
      | next :: rest =>
        if trimEnd next = mark ∨ (readJobLine? next).isSome then swept mark rest else next :: swept mark rest
    else swept mark rest

/-- All lines that are unrelated to the name of the job are there once it is installed, in their order; blank ones do
not count, nor do blanks at their ends. -/
def Spares (text : String) (job : Job) : Prop :=
  (visible (unrelated (marker job.name) false (lines text))).Sublist (visible (lines (upsert text job)))

instance (text : String) (job : Job) : Decidable (Spares text job) :=
  inferInstanceAs (Decidable (List.Sublist _ _))

variable {mark line : String} {ls : List String}

theorem visible_append (ls more : List String) : visible (ls ++ more) = visible ls ++ visible more := by
  rw [visible, List.map_append, List.filter_append, visible, visible]

theorem visible_cons (line : String) (ls : List String) :
    visible (line :: ls) = if trimEnd line = "" then visible ls else trimEnd line :: visible ls := by
  unfold visible
  by_cases blank : trimEnd line = "" <;> simp [blank]

theorem unrelated_marker (behind : Bool) (rest : List String) (same : trimEnd line = mark) :
    unrelated mark behind (line :: rest) = unrelated mark true rest := by
  rw [unrelated, if_pos same]

theorem unrelated_ahead (rest : List String) (other : trimEnd line ≠ mark) :
    unrelated mark false (line :: rest) = line :: unrelated mark false rest := by
  rw [unrelated, if_neg other]
  rfl

theorem unrelated_behind (rest : List String) (other : trimEnd line ≠ mark) : unrelated mark true (line :: rest) =
    if (readJobLine? line).isSome then unrelated mark false rest else line :: unrelated mark false rest := by
  rw [unrelated, if_neg other, Bool.true_and]

theorem dropManaged_pair (next : String) (rest : List String) (same : trimEnd line = mark) :
    dropManaged mark (line :: next :: rest) = dropManaged mark rest := by
  rw [dropManaged_cons, if_pos same]

theorem unrelated_sublist (mark : String) (ls : List String) :
    (unrelated mark true ls).Sublist (unrelated mark false ls) := by
  cases ls with
  | nil => exact .slnil
  | cons line rest =>
    by_cases same : trimEnd line = mark
    · rw [unrelated_marker true rest same, unrelated_marker false rest same]
    · rw [unrelated_behind rest same, unrelated_ahead rest same]
      split
      · exact List.sublist_cons_self line _
      · exact List.Sublist.refl _

theorem visible_sublist {ls more : List String} (part : ls.Sublist more) : (visible ls).Sublist (visible more) :=
  (part.map trimEnd).filter _

theorem unrelated_sublist_kept (nothing : visible (swept mark ls) = []) :
    (visible (unrelated mark false ls)).Sublist (visible (dropManaged mark ls)) := by
  fun_induction swept mark ls with
  | case1 => exact .slnil
  | case2 line same =>
    rw [unrelated_marker false [] same]
    exact List.nil_sublist _
  | case3 line same next rest fits ih =>
    rw [unrelated_marker false _ same, dropManaged_pair next rest same]
    by_cases again : trimEnd next = mark
    · rw [unrelated_marker true rest again]
      exact (visible_sublist (unrelated_sublist mark rest)).trans (ih nothing)
    · rw [unrelated_behind rest again, if_pos (fits.resolve_left again)]
      exact ih nothing
  | case4 line same next rest unfit ih =>
    obtain ⟨other, unread⟩ := not_or.mp unfit
    rw [visible_cons] at nothing
    split at nothing
    · rename_i blank
      rw [unrelated_marker false _ same, dropManaged_pair next rest same, unrelated_behind rest other, if_neg unread,
        visible_cons, if_pos blank]
      exact ih nothing
    · cases nothing
  | case5 line rest other ih =>
    rw [unrelated_ahead rest other, dropManaged_other rest other, visible_cons, visible_cons]
    split
    · exact ih nothing
    · exact (ih nothing).cons_cons _

theorem takeWords_blanks (n : Nat) {cs blanks : List Char} (few : takeWords n cs = none)
    (blank : ∀ c ∈ blanks, isBlank c = true) : takeWords n (cs ++ blanks) = none := by
  induction n generalizing cs with
  | zero => cases few
  | succ n ih =>
    rw [takeWords_succ] at few ⊢
    by_cases empty : trimStartChars cs = []
    · have skipped : trimStartChars (cs ++ blanks) = [] := by
        rw [trimStartChars, List.dropWhile_eq_nil_iff] at empty ⊢
        exact fun c member => (List.mem_append.mp member).elim (empty c) (blank c)
      rw [skipped]
      rfl
    · have skipped : trimStartChars (cs ++ blanks) = trimStartChars cs ++ blanks := by
        rw [trimStartChars, List.dropWhile_append, ← trimStartChars, if_neg (by simpa using empty)]
      -- The word in front ends before the blanks, so they are left to what follows it.
      have stops : blanks.takeWhile (!isBlank ·) = [] := by
        cases blanks with
        | nil => rfl
        | cons c rest => simp [blank c List.mem_cons_self]
      have whole : blanks.dropWhile (!isBlank ·) = blanks := by
        have parts := List.takeWhile_append_dropWhile (p := (!isBlank ·)) (l := blanks)
        rwa [stops, List.nil_append] at parts
      have word : (trimStartChars cs ++ blanks).takeWhile (!isBlank ·) =
          (trimStartChars cs).takeWhile (!isBlank ·) := by
        rw [List.takeWhile_append, stops, List.append_nil]
        split
        · rename_i all
          exact ((List.takeWhile_prefix _).eq_of_length all).symm
        · rfl
      have left : (trimStartChars cs ++ blanks).dropWhile (!isBlank ·) =
          (trimStartChars cs).dropWhile (!isBlank ·) ++ blanks := by
        rw [List.dropWhile_append, whole]
        split
        · rename_i none
          rw [List.isEmpty_iff.mp none, List.nil_append]
        · rfl
      rw [skipped, word, left]
      split at few
      · rename_i none
        rw [if_pos none]
      · rename_i some
        rw [if_neg some, ih (Option.map_eq_none_iff.mp few)]
        rfl

theorem readJobLine?_of_few {line : String} (few : takeWords 5 (trimEnd line).toList = none) :
    readJobLine? line = none := by
  obtain ⟨blanks, whole, blank⟩ := trimEnd_append_blanks line
  rw [readJobLine?, whole, takeWords_blanks 5 few blank]
  rfl

theorem count_unrelated (mark : String) (ls : List String) {x : String}
    (plain : ∀ line, trimEnd line = x → readJobLine? line = none) :
    (visible (unrelated mark false ls)).count x =
      (visible (dropManaged mark ls)).count x + (visible (swept mark ls)).count x := by
  -- Behind a marker only a job line is passed over, which is not the line that is counted.
  have behind (ls : List String) : (visible (unrelated mark true ls)).count x =
      (visible (unrelated mark false ls)).count x := by
    cases ls with
    | nil => rfl
    | cons line rest =>
      by_cases same : trimEnd line = mark
      · rw [unrelated_marker true rest same, unrelated_marker false rest same]
      · rw [unrelated_behind rest same, unrelated_ahead rest same]
        split
        · rename_i read
          have other : trimEnd line ≠ x := fun here => by simp [plain line here] at read
          rw [visible_cons]
          split
          · rfl
          · rw [List.count_cons_of_ne other]
        · rfl
  fun_induction swept mark ls with
  | case1 => rfl
  | case2 line same =>
    rw [unrelated_marker false [] same, dropManaged_cons, if_pos same]
    rfl
  | case3 line same next rest fits ih =>
    rw [unrelated_marker false _ same, dropManaged_pair next rest same, ← ih]
    by_cases again : trimEnd next = mark
    · rw [unrelated_marker true rest again, behind]
    · rw [unrelated_behind rest again, if_pos (fits.resolve_left again)]
  | case4 line same next rest unfit ih =>
    obtain ⟨other, unread⟩ := not_or.mp unfit
    rw [unrelated_marker false _ same, dropManaged_pair next rest same, unrelated_behind rest other, if_neg unread,
      visible_cons, visible_cons]
    split
    · exact ih
    · rw [List.count_cons, List.count_cons, ih, Nat.add_assoc]
  | case5 line rest other ih =>
    rw [unrelated_ahead rest other, dropManaged_other rest other, visible_cons, visible_cons]
    split
    · exact ih
    · rw [List.count_cons, List.count_cons, ih, Nat.add_right_comm]

theorem visible_keptLines (text name : String) :
    visible (keptLines text name) = visible (dropManaged (marker name) (lines text)) := by
  unfold keptLines
  split
  · rename_i blank
    rw [blank]
    rfl
  · rfl

theorem visible_upsert (text : String) (job : Job) : visible (lines (upsert text job)) =
    visible (dropManaged (marker job.name) (lines text)) ++
      visible (lines (written [marker job.name] ++ written [jobLine job])) := by
  rw [upsert_eq, ← written_marker, String.append_assoc, lines_append (written_closed _),
    lines_written fun line member => (mem_keptLines member).1, visible_append, visible_readBack, visible_keptLines]

theorem mem_swept {line : String} (member : line ∈ swept mark ls) :
    trimEnd line ≠ mark ∧ ∃ marked ∈ ls, trimEnd marked = mark := by
  fun_induction swept mark ls with
  | case1 => cases member
  | case2 line' same => cases member
  | case3 line' same next rest fits ih => exact ⟨(ih member).1, line', List.mem_cons_self, same⟩
  | case4 line' same next rest unfit ih =>
    refine ⟨?_, line', List.mem_cons_self, same⟩
    rcases List.mem_cons.mp member with rfl | member
    · exact (not_or.mp unfit).1
    · exact (ih member).1
  | case5 line' rest other ih =>
    obtain ⟨apart, marked, there, same⟩ := ih member
    exact ⟨apart, marked, List.mem_cons_of_mem _ there, same⟩

theorem ne_empty_of_managed {name line : String} (managed : trimEnd line = marker name) : name ≠ "" := by
  rintro rfl
  have padded : trimEnd (marker "") ≠ marker "" := by decide +kernel
  have ended := trimEnd_idem line
  rw [managed] at ended
  exact padded ended

theorem visible_new {job : Job} (nameable : Nameable job.name) (one : job.OneLine) :
    visible (lines (written [marker job.name] ++ written [jobLine job])) ⊆
      [marker job.name, trimEnd (jobLine job)] := by
  have tidy : ∀ line ∈ [marker job.name, jobLine job], TidyLine line :=
    List.forall_mem_cons.mpr ⟨nameable.tidy, List.forall_mem_singleton.mpr (jobLine_tidy one)⟩
  have single : ∀ line ∈ [marker job.name, jobLine job], SingleLine line := fun line member => (tidy line member).single
  have ended : trimEnd (marker job.name) = marker job.name := (trimEnd_marker_iff nameable.filled).mpr nameable.ended
  have read : lines (written [marker job.name] ++ written [jobLine job]) = [marker job.name, jobLine job] := by
    rw [← written_append, List.singleton_append, lines_written single, (map_readBack_eq_self_iff single).mpr tidy]
  rw [read, visible, List.map_cons, List.map_singleton, ended]
  exact List.filter_subset_self _

/-- Installing a job keeps all unrelated lines if no line is swept away that can be seen. A job that reads back as it
was written keeps them only then, as far as the lines that are swept away are shorter than a schedule. -/
theorem spares_unless_swept (text : String) (job : Job) :
    (visible (swept (marker job.name) (lines text)) = [] → Spares text job) ∧
      (job.OneLine → (∀ x ∈ visible (swept (marker job.name) (lines text)), takeWords 5 x.toList = none) →
        Spares text job → visible (swept (marker job.name) (lines text)) = []) := by
  constructor
  · intro nothing
    rw [Spares, visible_upsert]
    exact (unrelated_sublist_kept nothing).trans (List.sublist_append_left _ _)
  · intro one short spares
    by_contra something
    obtain ⟨x, seen⟩ := List.exists_mem_of_ne_nil _ something
    have counted := count_unrelated (marker job.name) (lines text) fun line same =>
      readJobLine?_of_few (same ▸ short x seen)
    obtain ⟨line, here, rfl⟩ := List.mem_map.mp (List.mem_filter.mp seen).1
    obtain ⟨other, marked, there, same⟩ := mem_swept here
    have nameable := nameable_of_managed (ne_empty_of_managed same) (lines_single there) same
    have notNew : (visible (lines (written [marker job.name] ++ written [jobLine job]))).count (trimEnd line) = 0 := by
      refine List.count_eq_zero.mpr fun new => ?_
      rcases List.mem_pair.mp (visible_new nameable one new) with again | again
      · exact other again
      · have unread := readJobLine?_of_few (again ▸ short _ seen)
        rw [readJobLine?_jobLine one] at unread
        cases unread
    have fewer := spares.count_le (trimEnd line)
    rw [visible_upsert, List.count_append, notNew, counted] at fewer
    have once := List.count_pos_iff.mpr seen
    omega

def wpJob : Job := ⟨"wp", "root", { minute := "*/5" }, "php cron.php"⟩

def gapText : String := "MAILTO=ops\n# steward: wp \n\n0 3 * * * rotate\n"

def tornText : String := "# steward: wp\nMAILTO=ops\n0 3 * * * rotate\n"

theorem spares_unless_swept_gap : Spares gapText wpJob ∧ ¬ Spares tornText wpJob := by
  have one : wpJob.OneLine := by decide +kernel
  have setting : visible (swept (marker wpJob.name) (lines tornText)) = ["MAILTO=ops"] := by decide +kernel
  refine ⟨(spares_unless_swept gapText wpJob).1 (by decide +kernel), fun spares => ?_⟩
  have short : ∀ x ∈ visible (swept (marker wpJob.name) (lines tornText)), takeWords 5 x.toList = none := by
    decide +kernel
  have nothing := (spares_unless_swept tornText wpJob).2 one short spares
  rw [setting] at nothing
  cases nothing

/-- The setting that stands behind the marker is gone. -/
theorem not_spares_torn :
    upsert tornText wpJob = "0 3 * * * rotate\n# steward: wp\n*/5 * * * * php cron.php\n" ∧
      unrelated (marker wpJob.name) false (lines tornText) = ["MAILTO=ops", "0 3 * * * rotate"] ∧
      ¬ Spares tornText wpJob := by
  decide +kernel

end Crontab

end Provision
