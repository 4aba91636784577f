import Provision.Json.Decode
import Provision.Text.Quoted

namespace Provision

open Text

structure Schedule where
  minute : String := "*"
  hour : String := "*"
  day : String := "*"
  month : String := "*"
  weekday : String := "*"
deriving DecidableEq, Repr, Inhabited

namespace Schedule

def fields (s : Schedule) : List String := [s.minute, s.hour, s.day, s.month, s.weekday]

def toText (s : Schedule) : String := joinWith " " s.fields

def parse? (text : String) : Option Schedule :=
  match words text with
  | [minute, hour, day, month, weekday] => some ⟨minute, hour, day, month, weekday⟩
  | _ => none

/-- The first field that is empty or holds a blank. -/
def invalidField? (s : Schedule) : Option String :=
  s.fields.find? fun f => f.isEmpty || f.toList.any isBlank

def fieldNames : List String := ["minute", "hour", "day", "month", "weekday"]

def toFields (s : Schedule) : Fields :=
  [("minute", .string s.minute), ("hour", .string s.hour), ("day", .string s.day),
    ("month", .string s.month), ("weekday", .string s.weekday)]

def toJson (s : Schedule) : Json := .object s.toFields

def ofFields? (fields : Fields) : Option Schedule := do
  let minute ← fields.getOr? "minute" "*" Json.asString?
  let hour ← fields.getOr? "hour" "*" Json.asString?
  let day ← fields.getOr? "day" "*" Json.asString?
  let month ← fields.getOr? "month" "*" Json.asString?
  let weekday ← fields.getOr? "weekday" "*" Json.asString?
  some ⟨minute, hour, day, month, weekday⟩

def ofJson? (v : Json) : Option Schedule := (v.record? fieldNames).bind ofFields?

end Schedule

structure Job where
  name : String
  user : String
  schedule : Schedule
  command : String
deriving DecidableEq, Repr, Inhabited

namespace Job

def toJson (job : Job) : Json :=
  .object [("name", .string job.name), ("user", .string job.user),
    ("schedule", job.schedule.toJson), ("command", .string job.command)]

def ofJson? (v : Json) : Option Job := do
  let fields ← v.record? ["name", "user", "schedule", "command"]
  let name ← fields.need? "name" Json.asString?
  let user ← fields.need? "user" Json.asString?
  let schedule ← fields.need? "schedule" Schedule.ofJson?
  let command ← fields.need? "command" Json.asString?
  some ⟨name, user, schedule, command⟩

end Job

end Provision
