import Provision.Host.World

namespace Provision

structure ScheduledJob where
  schedule : Schedule
  command : String
  user : String := "root"
deriving DecidableEq, Repr

namespace ScheduledJob

def entry (j : ScheduledJob) (name : String) : Job :=
  ⟨name, j.user, j.schedule, Text.trim j.command⟩

def describe (j : ScheduledJob) (name : String) : String :=
  "Schedule " ++ name ++ " (" ++ j.schedule.toText ++ ") for " ++ j.user

def problem? (j : ScheduledJob) : Option String :=
  match j.schedule.invalidField? with
  | some field => some ("invalid schedule field " ++ Text.quote field)
  | none =>
    if Text.isBlankText j.command || j.command.toList.contains '\n' then
      some "command must be a single non-empty line"
    else none

variable {σ : Type}

/-- The job of that name, if the scheduler has one. -/
def installed (host : Host σ) (j : ScheduledJob) (name : String) : Action σ (Option Job) := do
  return (← Action.ofReply (perform host (.jobs j.user))).find? (·.name == name)

def check (host : Host σ) (j : ScheduledJob) (name : String) : Action σ Drift := do
  match ← j.installed host name with
  | some job =>
    if job = j.entry name then return .inSync
    return .drifted ("update job " ++ name)
  | none => return .drifted ("install job " ++ name)

def apply (host : Host σ) (j : ScheduledJob) (name : String) : Action σ Change := do
  let found ← j.installed host name
  if found = some (j.entry name) then return .unchanged
  Action.ofReply (perform host (.installJob (j.entry name)))
  return .converged ((if found.isSome then "updated" else "installed") ++ " job " ++ name)

def toFields (j : ScheduledJob) : Fields :=
  j.schedule.toFields ++ [("command", .string j.command), ("user", .string j.user)]

def ofFields? (fields : Fields) : Option ScheduledJob := do
  let schedule ← Schedule.ofFields? fields
  let command ← fields.need? "command" Json.asString?
  let user ← fields.getOr? "user" "root" Json.asString?
  some ⟨schedule, command, user⟩

def ofJson? (v : Json) : Option ScheduledJob := v.asObject?.bind ofFields?

end ScheduledJob

end Provision
