import Mathlib.Data.List.DropRight
import Provision.Crontab
import Provision.Proofs.Lines

namespace Provision

namespace Text

theorem trimEndChars_blank (cs : List Char) {c : Char} (blank : isBlank c = true) :
    trimEndChars (cs ++ [c]) = trimEndChars cs :=
  List.rdropWhile_concat_pos isBlank cs c blank

theorem trimEndChars_append_iff (front : List Char) {cs : List Char} (filled : cs ≠ []) :
    trimEndChars (front ++ cs) = front ++ cs ↔ trimEndChars cs = cs := by
  have whole : front ++ cs ≠ [] := List.append_ne_nil_of_right_ne_nil front filled
  change List.rdropWhile isBlank _ = _ ↔ List.rdropWhile isBlank _ = _
  rw [List.rdropWhile_eq_self_iff, List.rdropWhile_eq_self_iff]
  simp only [whole, filled, ne_eq, not_false_eq_true, forall_true_left, List.getLast_append_of_right_ne_nil _ _ filled]

theorem trimEndChars_idem (cs : List Char) : trimEndChars (trimEndChars cs) = trimEndChars cs :=
  List.rdropWhile_idempotent isBlank cs

theorem trimStartChars_trimChars (cs : List Char) : trimStartChars (trimChars cs) = trimChars cs := by
  obtain ⟨blanks, whole⟩ := List.rdropWhile_prefix isBlank (trimStartChars cs)
  change trimChars cs ++ blanks = List.dropWhile isBlank cs at whole
  cases trimmed : trimChars cs with
  | nil => rfl
  | cons c rest =>
    rw [trimmed] at whole
    have filled : List.dropWhile isBlank cs ≠ [] := by simp [← whole]
    have first := List.head_dropWhile_not isBlank filled
    simp only [← whole, List.cons_append, List.head_cons] at first
    simp [trimStartChars, first]

theorem trimChars_idem (cs : List Char) : trimChars (trimChars cs) = trimChars cs := by
  rw [trimChars, trimStartChars_trimChars]
  exact trimEndChars_idem (trimStartChars cs)

theorem trimmed_ends {cs : List Char} (trimmed : trimChars cs = cs) : trimStartChars cs = cs ∧ trimEndChars cs = cs := by
  have start : trimStartChars cs = cs := by
    rw [← trimmed]
    exact trimStartChars_trimChars cs
  refine ⟨start, ?_⟩
  rwa [trimChars, start] at trimmed

theorem trimEnd_eq_self_iff {s : String} : trimEnd s = s ↔ trimEndChars s.toList = s.toList := by
  rw [← String.toList_inj, trimEnd, String.toList_ofList]

theorem trim_eq_self_iff {s : String} : trim s = s ↔ trimChars s.toList = s.toList := by
  rw [← String.toList_inj, trim, String.toList_ofList]

theorem trimEnd_of_trim {s : String} (trimmed : trim s = s) : trimEnd s = s :=
  trimEnd_eq_self_iff.mpr (trimmed_ends (trim_eq_self_iff.mp trimmed)).2

theorem trim_trim (s : String) : trim (trim s) = trim s := by
  rw [trim_eq_self_iff, trim, String.toList_ofList]
  exact trimChars_idem s.toList

theorem trim_single {s : String} (single : SingleLine s) : SingleLine (trim s) := by
  have part : trimChars s.toList <:+: s.toList :=
    (List.rdropWhile_prefix isBlank _).isInfix.trans (List.dropWhile_suffix isBlank).isInfix
  unfold SingleLine
  rw [trim, String.toList_ofList]
  exact fun member => single (part.subset member)

theorem trimEnd_isPrefix (s : String) : (trimEnd s).toList <+: s.toList := by
  rw [trimEnd, String.toList_ofList]
  exact List.rdropWhile_prefix isBlank s.toList

theorem trim_ne_empty {s : String} (filled : isBlankText s = false) : trim s ≠ "" := by
  intro empty
  have nothing : List.rdropWhile isBlank (s.toList.dropWhile isBlank) = [] := by
    rw [← String.toList_eq_nil_iff, trim, String.toList_ofList] at empty
    exact empty
  have rest : s.toList.dropWhile isBlank = [] := by
    by_contra left
    have first := List.head_dropWhile_not isBlank left
    rw [List.rdropWhile_eq_nil_iff.mp nothing _ (List.head_mem left)] at first
    cases first
  have blank : isBlankText s = true := List.all_eq_true.mpr (List.dropWhile_eq_nil_iff.mp rest)
  rw [blank] at filled
  cases filled

theorem startsWith_iff {p s : String} : startsWith p s = true ↔ p.toList <+: s.toList := by
  rw [startsWith, Option.isSome_iff_exists]
  constructor
  · rintro ⟨rest, found⟩
    exact ⟨rest, (dropLead?_eq_some_iff.mp found).symm⟩
  · rintro ⟨rest, whole⟩
    exact ⟨rest, dropLead?_eq_some_iff.mpr whole.symm⟩

theorem stripLead?_eq_none_iff {p s : String} : stripLead? p s = none ↔ startsWith p s = false := by
  rw [stripLead?, startsWith, Option.map_eq_none_iff, Option.isSome_eq_false_iff, Option.isNone_iff_eq_none]

theorem stripLead?_append (p s : String) : stripLead? p (p ++ s) = some s := by
  have found : dropLead? p.toList (p ++ s).toList = some s.toList := by
    rw [dropLead?_eq_some_iff, String.toList_append]
  rw [stripLead?, found, Option.map_some, String.ofList_toList]

theorem stripLead?_single {p s rest : String} (single : SingleLine s) (found : stripLead? p s = some rest) :
    SingleLine rest := by
  obtain ⟨cs, dropped, rfl⟩ := Option.map_eq_some_iff.mp found
  unfold SingleLine at single ⊢
  rw [dropLead?_eq_some_iff.mp dropped] at single
  rw [String.toList_ofList]
  exact fun member => single (List.mem_append_right _ member)

def readBack (line : String) : String := String.ofList (stripTerminator (line.toList ++ ['\n']))

theorem readBack_cases (line : String) :
    readBack line = line ∨ ∃ before, line.toList = before ++ ['\r'] ∧ (readBack line).toList = before := by
  rcases stripTerminator_line line.toList with kept | ⟨before, ends, shorter⟩
  · left
    rw [readBack, kept, String.ofList_toList]
  · right
    exact ⟨before, ends, by rw [readBack, shorter, String.toList_ofList]⟩

theorem readBack_tidy {line : String} (tidy : TidyLine line) : readBack line = line := by
  rw [readBack, tidy.strip, String.ofList_toList]

theorem readBack_eq_self_iff {line : String} (single : SingleLine line) : readBack line = line ↔ TidyLine line := by
  constructor
  · intro same
    refine ⟨single, fun before ends => ?_⟩
    have shorter : (readBack line).toList = before := by
      rw [readBack, String.toList_ofList, ends]
      simp [stripTerminator]
    rw [same, ends] at shorter
    simp at shorter
  · exact readBack_tidy

theorem map_readBack_eq_self_iff {ls : List String} (single : ∀ line ∈ ls, SingleLine line) :
    ls.map readBack = ls ↔ ∀ line ∈ ls, TidyLine line := by
  have each : ls.map readBack = ls ↔ ∀ line ∈ ls, readBack line = id line := by rw [← List.map_inj_left, List.map_id]
  rw [each]
  exact forall₂_congr fun line member => readBack_eq_self_iff (single line member)

theorem trimEnd_readBack (line : String) : trimEnd (readBack line) = trimEnd line := by
  rcases readBack_cases line with same | ⟨before, ends, shorter⟩
  · rw [same]
  · have blank : isBlank '\r' = true := by decide
    rw [trimEnd, trimEnd, ends, shorter, trimEndChars_blank _ blank]

theorem readBack_isPrefix (line : String) : (readBack line).toList <+: line.toList := by
  rcases readBack_cases line with same | ⟨before, ends, shorter⟩
  · have text : (readBack line).toList = line.toList := congrArg String.toList same
    exact ⟨[], by rw [text, List.append_nil]⟩
  · rw [ends, shorter]
    exact List.prefix_append before ['\r']

theorem tidy_of_trimEnd {line : String} (single : SingleLine line) (ended : trimEnd line = line) : TidyLine line := by
  refine ⟨single, fun before ends => ?_⟩
  have blank : isBlank '\r' = true := by decide
  have shorter := (List.rdropWhile_prefix isBlank before).length_le
  have same := trimEnd_eq_self_iff.mp ended
  rw [ends, trimEndChars_blank _ blank] at same
  have length := congrArg List.length same
  rw [List.length_append, List.length_singleton] at length
  change (trimEndChars before).length ≤ before.length at shorter
  omega

def written (ls : List String) : String := String.join (ls.map (· ++ "\n"))

theorem written_toList (ls : List String) : (written ls).toList = ls.flatMap fun line => line.toList ++ ['\n'] := by
  rw [written, String.toList_join, List.flatMap_map]
  simp only [String.toList_append, feed_toList]

theorem written_closed (ls : List String) : Closed (written ls).toList := by
  rw [written_toList]
  rcases List.eq_nil_or_concat ls with rfl | ⟨before, last, rfl⟩
  · exact Or.inl rfl
  · refine Or.inr ⟨(before.flatMap fun line => line.toList ++ ['\n']) ++ last.toList, ?_⟩
    simp [List.concat_eq_append]

theorem lines_written {ls : List String} (single : ∀ line ∈ ls, SingleLine line) :
    lines (written ls) = ls.map readBack := by
  have read := linesChars_written (Or.inl rfl) single
  rw [List.nil_append, ← written_toList] at read
  rw [lines, read, show linesChars [] = [] from rfl, List.nil_append, List.map_map]
  rfl

theorem written_injective {ls more : List String} (single : ∀ line ∈ ls, SingleLine line)
    (moreSingle : ∀ line ∈ more, SingleLine line) (same : written ls = written more) : ls = more := by
  have pieces := congrArg (fun text : String => piecesChars text.toList) same
  simp only [written_toList, piecesChars_written single, piecesChars_written moreSingle] at pieces
  refine (List.map_inj_right fun a b equal => ?_).mp pieces
  exact String.toList_inj.mp (List.append_cancel_right equal)

theorem written_append (ls more : List String) : written (ls ++ more) = written ls ++ written more := by
  rw [← String.toList_inj, String.toList_append, written_toList, written_toList, written_toList, List.flatMap_append]

theorem lines_append {whole : String} (closed : Closed whole.toList) (rest : String) :
    lines (whole ++ rest) = lines whole ++ lines rest := by
  unfold lines linesChars
  rw [String.toList_append, piecesChars_closed closed, List.map_append, List.map_append]

theorem joinWith_written {ls : List String} (filled : ls ≠ []) : joinWith "\n" ls ++ "\n" = written ls := by
  induction ls with
  | nil => exact absurd rfl filled
  | cons line rest ih =>
    cases rest with
    | nil => simp [joinWith, written, String.join]
    | cons next rest =>
      have later := ih (List.cons_ne_nil next rest)
      rw [joinWith] at later
      rw [joinWith, String.intercalate_cons_cons, String.append_assoc, later]
      simp [written]

end Text

open Text

/-- A job that is written as one line of a schedule and a command. -/
structure Job.OneLine (job : Job) : Prop where
  schedule : job.schedule.invalidField? = none
  filled : job.command ≠ ""
  single : SingleLine job.command
  trimmed : trim job.command = job.command

instance (job : Job) : Decidable job.OneLine :=
  decidable_of_iff (job.schedule.invalidField? = none ∧ job.command ≠ "" ∧ SingleLine job.command ∧
      trim job.command = job.command)
    ⟨fun ⟨schedule, filled, single, trimmed⟩ => ⟨schedule, filled, single, trimmed⟩,
      fun one => ⟨one.schedule, one.filled, one.single, one.trimmed⟩⟩

namespace Crontab

/-- A name whose marker is written and read as one line. -/
structure Nameable (name : String) : Prop where
  filled : name ≠ ""
  single : SingleLine name
  ended : trimEnd name = name

theorem marker_toList (name : String) : (marker name).toList = markerLead.toList ++ name.toList := String.toList_append

theorem trimEnd_marker_iff {name : String} (filled : name ≠ "") :
    trimEnd (marker name) = marker name ↔ trimEnd name = name := by
  rw [trimEnd_eq_self_iff, trimEnd_eq_self_iff, marker_toList]
  exact trimEndChars_append_iff _ (String.toList_eq_nil_iff.not.mpr filled)

theorem Nameable.tidy {name : String} (nameable : Nameable name) : TidyLine (marker name) := by
  have lead : '\n' ∉ markerLead.toList := by decide +kernel
  have own : '\n' ∉ name.toList := nameable.single
  refine tidy_of_trimEnd ?_ ((trimEnd_marker_iff nameable.filled).mpr nameable.ended)
  unfold SingleLine
  rw [marker_toList]
  simp [lead, own]

theorem stripLead?_marker (name : String) : stripLead? markerLead (marker name) = some name :=
  stripLead?_append markerLead name

theorem marker_injective {name other : String} (same : marker name = marker other) : name = other := by
  have found := congrArg (stripLead? markerLead) same
  rw [stripLead?_marker, stripLead?_marker] at found
  exact Option.some.inj found

theorem startsWith_marker (name : String) : startsWith markerLead (marker name) = true := by
  rw [startsWith_iff, marker_toList]
  exact List.prefix_append _ _

theorem startsWith_of_trimEnd {line name : String} (same : trimEnd line = marker name) :
    startsWith markerLead line = true := by
  have shorter := trimEnd_isPrefix line
  rw [same, marker_toList] at shorter
  rw [startsWith_iff]
  exact (List.prefix_append _ _).trans shorter

theorem takeWords_succ (n : Nat) (cs : List Char) : takeWords (n + 1) cs =
    if ((trimStartChars cs).takeWhile (!isBlank ·)).isEmpty then none
    else (takeWords n ((trimStartChars cs).dropWhile (!isBlank ·))).map fun (ws, rest) =>
      ((trimStartChars cs).takeWhile (!isBlank ·) :: ws, rest) :=
  rfl

theorem takeWords_skip (n : Nat) (cs : List Char) : takeWords (n + 1) (' ' :: cs) = takeWords (n + 1) cs := by
  have blank : isBlank ' ' = true := by decide
  have skipped : trimStartChars (' ' :: cs) = trimStartChars cs := List.dropWhile_cons_of_pos blank
  rw [takeWords_succ, takeWords_succ, skipped]

theorem takeWords_word (n : Nat) {w rest : List Char} (filled : w ≠ []) (plain : ∀ c ∈ w, isBlank c = false)
    (stops : rest.takeWhile (!isBlank ·) = []) :
    takeWords (n + 1) (w ++ rest) = (takeWords n rest).map fun (ws, rest) => (w :: ws, rest) := by
  have solid : ∀ c ∈ w, (!isBlank c) = true := fun c member => by simp [plain c member]
  have start : trimStartChars (w ++ rest) = w ++ rest := by
    cases w with
    | nil => exact absurd rfl filled
    | cons c w => simp [trimStartChars, plain c List.mem_cons_self]
  have taken : (w ++ rest).takeWhile (!isBlank ·) = w := by
    rw [List.takeWhile_append_of_pos solid, stops, List.append_nil]
  have left : (w ++ rest).dropWhile (!isBlank ·) = rest := by
    have both := List.takeWhile_append_dropWhile (p := (!isBlank ·)) (l := w ++ rest)
    rw [taken] at both
    exact List.append_cancel_left both
  rw [takeWords_succ, start, taken, left, if_neg (by simpa using filled)]

theorem takeWords_words {ws : List (List Char)} {rest : List Char}
    (words : ∀ w ∈ ws, w ≠ [] ∧ ∀ c ∈ w, isBlank c = false) (stops : rest.takeWhile (!isBlank ·) = []) :
    takeWords ws.length (ws.flatMap (' ' :: ·) ++ rest) = some (ws, rest) := by
  induction ws with
  | nil => rfl
  | cons w ws ih =>
    obtain ⟨filled, plain⟩ := words w List.mem_cons_self
    have later := ih fun v member => words v (List.mem_cons_of_mem _ member)
    have whole : (w :: ws).flatMap (' ' :: ·) ++ rest = ' ' :: (w ++ (ws.flatMap (' ' :: ·) ++ rest)) := by simp
    have ends : (ws.flatMap (' ' :: ·) ++ rest).takeWhile (!isBlank ·) = [] := by
      cases ws with
      | nil => exact stops
      | cons v ws => rfl
    rw [whole, List.length_cons, takeWords_skip, takeWords_word _ filled plain ends, later]
    rfl

theorem takeCommand?_of_trimmed {command : List Char} (filled : command ≠ []) (trimmed : trimChars command = command) :
    takeCommand? (' ' :: command) = some command := by
  have blank : isBlank ' ' = true := by decide
  obtain ⟨start, ended⟩ := trimmed_ends trimmed
  have skipped : trimStartChars (' ' :: command) = command := by
    rw [trimStartChars, List.dropWhile_cons_of_pos blank]
    exact start
  unfold takeCommand?
  dsimp only
  rw [skipped, ended]
  simp [filled]

theorem jobLine_toList (job : Job) :
    ' ' :: (jobLine job).toList =
      (job.schedule.fields.map String.toList).flatMap (' ' :: ·) ++ ' ' :: job.command.toList := by
  have space : " ".toList = [' '] := by decide +kernel
  simp [jobLine, Schedule.toText, Schedule.fields, joinWith, String.intercalate_cons_cons, space]

theorem field_words {s : Schedule} (valid : s.invalidField? = none) :
    ∀ w ∈ s.fields.map String.toList, w ≠ [] ∧ ∀ c ∈ w, isBlank c = false := by
  intro w member
  obtain ⟨field, declared, rfl⟩ := List.mem_map.mp member
  have fine := List.find?_eq_none.mp valid field declared
  simp only [Bool.or_eq_true, not_or, List.any_eq_true, not_exists, not_and, Bool.not_eq_true] at fine
  refine ⟨?_, fine.2⟩
  rw [ne_eq, String.toList_eq_nil_iff]
  simpa using fine.1

theorem readJobLine?_jobLine {job : Job} (one : job.OneLine) :
    readJobLine? (jobLine job) = some (job.schedule, job.command) := by
  have words : takeWords 5 (jobLine job).toList =
      some (job.schedule.fields.map String.toList, ' ' :: job.command.toList) := by
    rw [← takeWords_skip 4, jobLine_toList]
    exact takeWords_words (field_words one.schedule) (by simp [show isBlank ' ' = true by decide])
  have command : takeCommand? (' ' :: job.command.toList) = some job.command.toList :=
    takeCommand?_of_trimmed (String.toList_eq_nil_iff.not.mpr one.filled) (trim_eq_self_iff.mp one.trimmed)
  unfold readJobLine?
  rw [words]
  simp only [Option.bind_eq_bind, Option.bind_some, command, Schedule.fields, List.map_cons, List.map_nil,
    String.ofList_toList]

theorem jobLine_tidy {job : Job} (one : job.OneLine) : TidyLine (jobLine job) := by
  have text : (jobLine job).toList = (job.schedule.toText ++ " ").toList ++ job.command.toList := String.toList_append
  apply tidy_of_trimEnd
  · have whole : '\n' ∉ ' ' :: (jobLine job).toList := by
      rw [jobLine_toList]
      intro member
      rcases List.mem_append.mp member with inField | inCommand
      · obtain ⟨w, field, here⟩ := List.mem_flatMap.mp inField
        rcases List.mem_cons.mp here with feed | here
        · cases feed
        · exact absurd ((field_words one.schedule w field).2 '\n' here) (by decide)
      · rcases List.mem_cons.mp inCommand with feed | here
        · cases feed
        · exact one.single here
    exact fun member => whole (List.mem_cons_of_mem _ member)
  · rw [trimEnd_eq_self_iff, text]
    have ended := trimEnd_eq_self_iff.mp (trimEnd_of_trim one.trimmed)
    exact (trimEndChars_append_iff _ (String.toList_eq_nil_iff.not.mpr one.filled)).mpr ended

/-- The lines end in a marker whose job line is still to come. -/
def awaitsJob : List String → Bool
  | [] => false
  | line :: rest =>
    if startsWith markerLead line then
      match rest with
      | [] => true
      | _ :: rest => awaitsJob rest
    else awaitsJob rest

theorem jobsOf_cons (user line : String) (rest : List String) : jobsOf user (line :: rest) =
    match stripLead? markerLead line with
    | none => jobsOf user rest
    | some name =>
      match rest with
      | [] => []
      | job :: rest =>
        match readJobLine? job with
        | none => jobsOf user rest
        | some (schedule, command) => ⟨trim name, user, schedule, command⟩ :: jobsOf user rest :=
  jobsOf.eq_def user (line :: rest)

theorem jobsOf_other {user line : String} (rest : List String) (other : startsWith markerLead line = false) :
    jobsOf user (line :: rest) = jobsOf user rest := by
  have none := stripLead?_eq_none_iff.mpr other
  rw [jobsOf_cons]
  simp only [none]

theorem jobsOf_single (user line : String) : jobsOf user [line] = [] := by
  rw [jobsOf_cons]
  cases stripLead? markerLead line <;> rfl

theorem jobsOf_pair {user line : String} (job : String) (rest : List String) (marked : startsWith markerLead line = true) :
    jobsOf user (line :: job :: rest) = jobsOf user [line, job] ++ jobsOf user rest := by
  cases found : stripLead? markerLead line with
  | none =>
    rw [stripLead?_eq_none_iff, marked] at found
    cases found
  | some name =>
    simp only [jobsOf_cons, found]
    cases readJobLine? job <;> rfl

/-- Where no marker awaits its job line, what follows is read by itself. -/
theorem jobsOf_append (user : String) {ls : List String} (rest : List String) (settled : awaitsJob ls = false) :
    jobsOf user (ls ++ rest) = jobsOf user ls ++ jobsOf user rest := by
  fun_induction awaitsJob ls with
  | case1 => rfl
  | case2 line marked => cases settled
  | case3 line marked job ls ih =>
    rw [List.cons_append, List.cons_append, jobsOf_pair job (ls ++ rest) marked, jobsOf_pair job ls marked, ih settled,
      List.append_assoc]
  | case4 line ls other ih =>
    have other := Bool.eq_false_iff.mpr other
    rw [List.cons_append, jobsOf_other _ other, jobsOf_other _ other, ih settled]

theorem awaitsJob_cons (line : String) (rest : List String) : awaitsJob (line :: rest) =
    if startsWith markerLead line then
      match rest with
      | [] => true
      | _ :: rest => awaitsJob rest
    else awaitsJob rest := by
  cases rest <;> rfl

theorem awaitsJob_other {line : String} (rest : List String) (other : startsWith markerLead line = false) :
    awaitsJob (line :: rest) = awaitsJob rest := by
  rw [awaitsJob_cons, other, if_neg Bool.false_ne_true]

theorem awaitsJob_concat (ls : List String) (line : String) :
    awaitsJob (ls ++ [line]) = (!awaitsJob ls && startsWith markerLead line) := by
  fun_induction awaitsJob ls with
  | case1 => simp [awaitsJob_cons, awaitsJob]
  | case2 line' marked => simp [awaitsJob_cons, awaitsJob, marked]
  | case3 line' marked job ls ih => simpa [awaitsJob_cons, marked] using ih
  | case4 line' ls other ih => rw [List.cons_append, awaitsJob_other _ (Bool.eq_false_iff.mpr other), ih]

theorem jobsOf_named {user : String} {ls : List String} (single : ∀ line ∈ ls, SingleLine line) :
    ∀ job ∈ jobsOf user ls, SingleLine job.name ∧ trim job.name = job.name := by
  fun_induction jobsOf user ls with
  | case1 => simp
  | case2 line ls other ih => exact ih fun line member => single line (List.mem_cons_of_mem _ member)
  | case3 line name found => simp
  | case4 line name found job ls unread ih =>
    exact ih fun line member => single line (List.mem_cons_of_mem _ (List.mem_cons_of_mem _ member))
  | case5 line name found job ls schedule command read ih =>
    intro other member
    rcases List.mem_cons.mp member with rfl | member
    · exact ⟨trim_single (stripLead?_single (single line List.mem_cons_self) found), trim_trim name⟩
    · exact ih (fun line member => single line (List.mem_cons_of_mem _ (List.mem_cons_of_mem _ member))) other member

theorem jobsOf_installed {user : String} {job : Job} (one : job.OneLine) (owner : job.user = user)
    (trimmed : trim job.name = job.name) : jobsOf user [marker job.name, jobLine job] = [job] := by
  rw [jobsOf_cons]
  simp only [stripLead?_marker, readJobLine?_jobLine one, trimmed]
  rw [← owner]
  rfl

theorem dropManaged_cons (mark line : String) (rest : List String) : dropManaged mark (line :: rest) =
    if trimEnd line = mark then
      match rest with
      | [] => []
      | _ :: rest => dropManaged mark rest
    else line :: dropManaged mark rest := by
  cases rest <;> rfl

theorem dropManaged_other {mark line : String} (rest : List String) (other : trimEnd line ≠ mark) :
    dropManaged mark (line :: rest) = line :: dropManaged mark rest := by
  rw [dropManaged_cons, if_neg other]

theorem dropManaged_append {mark : String} {ls : List String} (rest : List String)
    (other : ∀ line ∈ ls, trimEnd line ≠ mark) : dropManaged mark (ls ++ rest) = ls ++ dropManaged mark rest := by
  induction ls with
  | nil => rfl
  | cons line ls ih =>
    have later := ih fun line member => other line (List.mem_cons_of_mem _ member)
    rw [List.cons_append, dropManaged_other _ (other line List.mem_cons_self), later, List.cons_append]

theorem dropManaged_eq_self {mark : String} {ls : List String} (other : ∀ line ∈ ls, trimEnd line ≠ mark) :
    dropManaged mark ls = ls := by
  have alone := dropManaged_append [] other
  have nothing : dropManaged mark [] = [] := rfl
  rwa [List.append_nil, nothing, List.append_nil] at alone

theorem mem_dropManaged {mark line : String} {ls : List String} (member : line ∈ dropManaged mark ls) :
    line ∈ ls ∧ trimEnd line ≠ mark := by
  fun_induction dropManaged mark ls with
  | case1 => cases member
  | case2 line' same => cases member
  | case3 line' same job ls ih =>
    obtain ⟨there, other⟩ := ih member
    exact ⟨List.mem_cons_of_mem _ (List.mem_cons_of_mem _ there), other⟩
  | case4 line' ls other ih =>
    rcases List.mem_cons.mp member with rfl | member
    · exact ⟨List.mem_cons_self, other⟩
    · exact ⟨List.mem_cons_of_mem _ (ih member).1, (ih member).2⟩

/-- The lines that installing a job of the name keeps, as they are written: a single blank line is not. -/
def keptLines (text name : String) : List String :=
  if dropManaged (marker name) (lines text) = [""] then [] else dropManaged (marker name) (lines text)

theorem mem_keptLines {text name line : String} (member : line ∈ keptLines text name) :
    SingleLine line ∧ trimEnd line ≠ marker name := by
  unfold keptLines at member
  split at member
  · cases member
  · obtain ⟨there, other⟩ := mem_dropManaged member
    exact ⟨lines_single there, other⟩

theorem joinWith_eq_empty_iff {ls : List String} : joinWith "\n" ls = "" ↔ ls = [] ∨ ls = [""] := by
  rcases ls with _ | ⟨line, _ | ⟨next, rest⟩⟩
  · simp [joinWith]
  · simp [joinWith]
  · simp [joinWith, String.intercalate_cons_cons]

theorem upsert_eq (text : String) (job : Job) :
    upsert text job = written (keptLines text job.name) ++ (marker job.name ++ "\n") ++ written [jobLine job] := by
  have one : written [jobLine job] = jobLine job ++ "\n" := (joinWith_written (List.cons_ne_nil _ _)).symm
  have kept : (if joinWith "\n" (dropManaged (marker job.name) (lines text)) = "" then ""
      else joinWith "\n" (dropManaged (marker job.name) (lines text)) ++ "\n") = written (keptLines text job.name) := by
    unfold keptLines
    by_cases nothing : joinWith "\n" (dropManaged (marker job.name) (lines text)) = ""
    · rw [if_pos nothing]
      rcases joinWith_eq_empty_iff.mp nothing with none | blank
      · rw [none]
        rfl
      · rw [blank]
        rfl
    · rw [if_neg nothing]
      obtain ⟨filled, notBlank⟩ := not_or.mp (joinWith_eq_empty_iff.not.mp nothing)
      rw [if_neg notBlank, joinWith_written filled]
  rw [upsert, kept, one]
  simp only [String.append_assoc]

theorem written_marker (name : String) : written [marker name] = marker name ++ "\n" :=
  (joinWith_written (List.cons_ne_nil _ _)).symm

theorem lines_upsert (text : String) {job : Job} (one : job.OneLine) :
    lines (upsert text job) =
      (keptLines text job.name).map readBack ++ lines (marker job.name ++ "\n") ++ [jobLine job] := by
  have jobRead : lines (written [jobLine job]) = [jobLine job] := by
    have tidy := jobLine_tidy one
    rw [lines_written (by simpa using tidy.single), List.map_singleton, readBack_tidy tidy]
  have closed : Closed (written (keptLines text job.name) ++ (marker job.name ++ "\n")).toList := by
    rw [← written_marker, ← written_append]
    exact written_closed _
  rw [upsert_eq, lines_append closed, lines_append (written_closed _), jobRead]
  rw [lines_written fun line member => (mem_keptLines member).1]

theorem lines_upsert_of_nameable (text : String) {job : Job} (one : job.OneLine) (nameable : Nameable job.name) :
    lines (upsert text job) = (keptLines text job.name).map readBack ++ [marker job.name, jobLine job] := by
  have tidy := nameable.tidy
  rw [lines_upsert text one, ← written_marker, lines_written (by simpa using tidy.single), List.map_singleton,
    readBack_tidy tidy, List.append_assoc]
  rfl

end Crontab

end Provision
