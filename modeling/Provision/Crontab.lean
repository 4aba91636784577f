import Provision.Job
import Provision.Text.Lines
import Provision.Text.Split

namespace Provision.Crontab

open Text

def markerLead : String := "# steward: "

def marker (name : String) : String := markerLead ++ name

def takeWords : Nat → List Char → Option (List (List Char) × List Char)
  | 0, cs => some ([], cs)
  | n + 1, cs =>
    let cs := trimStartChars cs
    let word := cs.takeWhile (!isBlank ·)
    if word.isEmpty then none
    else (takeWords n (cs.dropWhile (!isBlank ·))).map fun (ws, rest) => (word :: ws, rest)

/-- The command after the schedule: blanks, then at least one character up to the end of the
line. Where there are blanks only, two or more of them leave an empty command. -/
def takeCommand? (rest : List Char) : Option (List Char) :=
  let command := trimStartChars rest
  if command.isEmpty then (if 2 ≤ rest.length then some [] else none)
  else if command.length < rest.length then some (trimEndChars command)
  else none

def readJobLine? (line : String) : Option (Schedule × String) := do
  let (ws, rest) ← takeWords 5 line.toList
  let command ← takeCommand? rest
  match ws.map String.ofList with
  | [minute, hour, day, month, weekday] =>
    some (⟨minute, hour, day, month, weekday⟩, String.ofList command)
  | _ => none

/-- The managed jobs among the lines. The line after a marker belongs to it in any case. -/
def jobsOf (user : String) : List String → List Job
  | [] => []
  | line :: rest =>
    match stripLead? markerLead line with
    | none => jobsOf user rest
    | some name =>
      match rest with
      | [] => []
      | job :: rest =>
        match readJobLine? job with
        | none => jobsOf user rest
        | some (schedule, command) => ⟨trim name, user, schedule, command⟩ :: jobsOf user rest

def parseJobs (user text : String) : List Job := jobsOf user (lines text)

/-- The lines without each marker line of the given text and the line after it. -/
def dropManaged (mark : String) : List String → List String
  | [] => []
  | line :: rest =>
    if trimEnd line = mark then
      match rest with
      | [] => []
      | _ :: rest => dropManaged mark rest
    else line :: dropManaged mark rest

def jobLine (job : Job) : String := job.schedule.toText ++ " " ++ job.command

/-- The crontab with the job installed, in place of a job of the same name. -/
def upsert (text : String) (job : Job) : String :=
  let kept := joinWith "\n" (dropManaged (marker job.name) (lines text))
  (if kept = "" then "" else kept ++ "\n") ++ marker job.name ++ "\n" ++ jobLine job ++ "\n"

end Provision.Crontab
