import Provision.Proofs.CrontabText
import Provision.Resource.ScheduledJob

namespace Provision

open Text

namespace Text

def IsWord (cs : List Char) : Prop := cs ≠ [] ∧ ∀ c ∈ cs, isBlank c = false

instance (cs : List Char) : Decidable (IsWord cs) :=
  inferInstanceAs (Decidable (cs ≠ [] ∧ ∀ c ∈ cs, isBlank c = false))

/-- The text is made of the words, in this order, and of blanks. A word ends at a blank or at the end of the text. -/
inductive Spaced : List Char → List (List Char) → Prop
  | nil : Spaced [] []
  | blank {c : Char} {cs : List Char} {ws : List (List Char)} (blank : isBlank c = true) (rest : Spaced cs ws) :
    Spaced (c :: cs) ws
  | word {w cs : List Char} {ws : List (List Char)} (word : IsWord w) (stops : ∀ c ∈ cs.head?, isBlank c = true)
    (rest : Spaced cs ws) : Spaced (w ++ cs) (w :: ws)

theorem Spaced.isWord {cs : List Char} {ws : List (List Char)} (spaced : Spaced cs ws) : ∀ w ∈ ws, IsWord w := by
  induction spaced with
  | nil => exact List.forall_mem_nil _
  | blank _ _ ih => exact ih
  | word word _ _ ih => exact List.forall_mem_cons.mpr ⟨word, ih⟩

theorem wordsChars_blank {c : Char} (blank : isBlank c = true) (cs : List Char) :
    wordsChars (c :: cs) = wordsChars cs := by
  rw [wordsChars.eq_def]
  exact if_pos blank

theorem wordsChars_last {c : Char} (plain : isBlank c = false) {cs : List Char}
    (stops : ∀ d ∈ cs.head?, isBlank d = true) : wordsChars (c :: cs) = [c] :: wordsChars cs := by
  cases cs with
  | nil => simp [wordsChars, plain]
  | cons d cs =>
    have blank : isBlank d = true := stops d rfl
    rw [wordsChars.eq_def]
    simp only [plain, blank, Bool.false_eq_true, if_false, if_true]

theorem wordsChars_joined {c d : Char} (plain : isBlank c = false) (next : isBlank d = false) (cs : List Char) :
    wordsChars (c :: d :: cs) = consWord c (wordsChars (d :: cs)) := by
  rw [wordsChars.eq_def]
  simp only [plain, next, Bool.false_eq_true, if_false]

theorem wordsChars_word {w cs : List Char} (word : IsWord w) (stops : ∀ c ∈ cs.head?, isBlank c = true) :
    wordsChars (w ++ cs) = w :: wordsChars cs := by
  induction w with
  | nil => exact absurd rfl word.1
  | cons c w ih =>
    obtain ⟨plain, rest⟩ := List.forall_mem_cons.mp word.2
    cases w with
    | nil => exact wordsChars_last plain stops
    | cons d w =>
      have later := ih ⟨List.cons_ne_nil d w, rest⟩
      rw [List.cons_append] at later
      rw [List.cons_append, List.cons_append, wordsChars_joined plain (rest d List.mem_cons_self), later]
      rfl

theorem Spaced.wordsChars_eq {cs : List Char} {ws : List (List Char)} (spaced : Spaced cs ws) :
    wordsChars cs = ws := by
  induction spaced with
  | nil => rfl
  | blank blank _ ih => rw [wordsChars_blank blank, ih]
  | word word stops _ ih => rw [wordsChars_word word stops, ih]

/-- The text is made of the words that cutting it at blanks finds. -/
theorem spaced_wordsChars (cs : List Char) : Spaced cs (wordsChars cs) := by
  induction cs with
  | nil => exact .nil
  | cons c cs ih =>
    by_cases blank : isBlank c = true
    · rw [wordsChars_blank blank]
      exact .blank blank ih
    · have plain := Bool.eq_false_iff.mpr blank
      by_cases stops : ∀ d ∈ cs.head?, isBlank d = true
      · rw [wordsChars_last plain stops]
        exact .word ⟨List.cons_ne_nil c [], by simpa using plain⟩ stops ih
      · -- The word goes on: the first word of the rest becomes longer.
        generalize wordsChars cs = found at ih
        cases ih with
        | nil => exact absurd nofun stops
        | blank next => exact absurd (by simpa using next) stops
        | @word w cs ws word ends rest =>
          have longer : IsWord (c :: w) := ⟨List.cons_ne_nil c w, List.forall_mem_cons.mpr ⟨plain, word.2⟩⟩
          rw [← List.cons_append, wordsChars_word longer ends, rest.wordsChars_eq]
          exact .word longer ends rest

theorem wordsChars_eq_iff {cs : List Char} {ws : List (List Char)} : wordsChars cs = ws ↔ Spaced cs ws := by
  constructor
  · rintro rfl
    exact spaced_wordsChars cs
  · exact Spaced.wordsChars_eq

theorem words_eq_iff {text : String} {ws : List String} :
    words text = ws ↔ Spaced text.toList (ws.map String.toList) := by
  rw [← wordsChars_eq_iff, words]
  constructor
  · rintro rfl
    simp [Function.comp_def]
  · intro same
    simp [same, Function.comp_def]

theorem Spaced.joined {ws : List (List Char)} (words : ∀ w ∈ ws, IsWord w) : Spaced ([' '].intercalate ws) ws := by
  have blank : isBlank ' ' = true := by decide
  induction ws with
  | nil => exact .nil
  | cons w ws ih =>
    obtain ⟨first, others⟩ := List.forall_mem_cons.mp words
    cases ws with
    | nil =>
      have alone : Spaced (w ++ []) [w] := .word first (by simp) .nil
      rw [List.append_nil] at alone
      rwa [List.intercalate_singleton]
    | cons v ws =>
      have behind : Spaced (' ' :: [' '].intercalate (v :: ws)) (v :: ws) := .blank blank (ih others)
      rw [List.intercalate_cons_cons, List.append_assoc]
      exact .word first (by simpa using blank) behind

theorem words_joinWith_iff {ws : List String} :
    words (joinWith " " ws) = ws ↔ ∀ w ∈ ws, IsWord w.toList := by
  have space : " ".toList = [' '] := by decide +kernel
  rw [words_eq_iff, joinWith, String.toList_intercalate, space, ← List.forall_mem_map]
  constructor
  · exact Spaced.isWord
  · exact Spaced.joined

end Text

namespace Schedule

variable {s : Schedule} {text : String}

theorem parse?_eq_some_iff : parse? text = some s ↔ words text = s.fields := by
  unfold parse?
  constructor
  · intro parsed
    split at parsed
    · rename_i found
      cases parsed
      exact found
    · cases parsed
  · intro found
    rw [found]
    rfl

theorem invalidField?_eq_none_iff : s.invalidField? = none ↔ ∀ field ∈ s.fields, IsWord field.toList := by
  rw [← List.forall_mem_map]
  constructor
  · exact Crontab.field_words
  · intro words
    refine List.find?_eq_none.mpr fun field declared => ?_
    obtain ⟨filled, plain⟩ := words _ (List.mem_map_of_mem declared)
    have named : field ≠ "" := String.toList_eq_nil_iff.not.mp filled
    simp only [Bool.or_eq_true, String.isEmpty_iff, List.any_eq_true, not_or, not_exists, not_and]
    exact ⟨named, fun c member => by simp [plain c member]⟩

theorem toText_of_parse? (parsed : parse? text = some s) : s.toText = joinWith " " (words text) := by
  rw [parse?_eq_some_iff.mp parsed, toText]

end Schedule

theorem ScheduledJob.problem?_eq_none_iff {j : ScheduledJob} :
    j.problem? = none ↔ j.schedule.invalidField? = none ∧ isBlankText j.command = false ∧ SingleLine j.command := by
  unfold problem? SingleLine
  cases j.schedule.invalidField? with
  | some field => simp
  | none => simp [or_iff_not_imp_left]

/-- The text of a schedule is read as that schedule just if validation accepts its fields, and what is read from any
text is a schedule that validation accepts, whose own text is the words of that text joined by single blanks. -/
theorem Schedule.reads_back_iff (s : Schedule) :
    (parse? s.toText = some s ↔ s.invalidField? = none) ∧
      (s.invalidField? = none ↔ ∀ field ∈ s.fields, IsWord field.toList) ∧
      (∀ command user, ScheduledJob.problem? ⟨s, command, user⟩ = none ↔
        parse? s.toText = some s ∧ isBlankText command = false ∧ SingleLine command) ∧
      ∀ text, (parse? text = some s ↔ Spaced text.toList (s.fields.map String.toList)) ∧
        (parse? text = some s → s.invalidField? = none ∧ (words text).length = 5 ∧
          s.toText = joinWith " " (words text)) := by
  have back : parse? s.toText = some s ↔ s.invalidField? = none := by
    rw [parse?_eq_some_iff, toText, words_joinWith_iff, invalidField?_eq_none_iff]
  refine ⟨back, invalidField?_eq_none_iff, fun command user => ?_, fun text => ⟨?_, fun parsed => ?_⟩⟩
  · rw [ScheduledJob.problem?_eq_none_iff, back]
  · rw [parse?_eq_some_iff, words_eq_iff]
  · have found := parse?_eq_some_iff.mp parsed
    have fields := (words_eq_iff.mp found).isWord
    refine ⟨invalidField?_eq_none_iff.mpr (List.forall_mem_map.mp fields), ?_, toText_of_parse? parsed⟩
    rw [found]
    rfl

def weekdays : Schedule := { minute := "*/5", hour := "2", weekday := "1-5" }

theorem Schedule.reads_back_iff_spread :
    parse? "\t*/5 2  *\u2003* 1-5\n" = some weekdays ∧ weekdays.invalidField? = none ∧
      weekdays.toText = joinWith " " (words "\t*/5 2  *\u2003* 1-5\n") ∧ parse? weekdays.toText = some weekdays := by
  have parsed : parse? "\t*/5 2  *\u2003* 1-5\n" = some weekdays := by decide +kernel
  obtain ⟨back, -, -, reads⟩ := reads_back_iff weekdays
  obtain ⟨valid, -, shown⟩ := (reads "\t*/5 2  *\u2003* 1-5\n").2 parsed
  exact ⟨parsed, valid, shown, back.mpr valid⟩

/-- An empty field and a field of two words make up for each other, and another schedule is read. -/
example : Schedule.parse? { minute := "", hour := "1 2" : Schedule }.toText = some { minute := "1", hour := "2" } := by
  decide +kernel

end Provision
