import Provision.Json.Source

namespace Provision

namespace Json

/-- The fields of a record, from an object or from an array in the declared order. -/
def record? (names : List String) : Json → Option Fields
  | .object fields => some fields
  | .array items => if items.length ≤ names.length then some (names.zip items) else none
  | _ => none

/-- The name of an alternative without content. A value that was set aside before it was read may
also hold an empty object as the content. -/
def alternative? (setAside : Bool) : Json → Option String
  | .string s => some s
  | .object [(k, .null)] => some k
  | .object [(k, .object [])] => if setAside then some k else none
  | _ => none

def optional? {α : Type} (read : Json → Option α) : Json → Option (Option α)
  | .null => some none
  | v => (read v).map some

def list? {α : Type} (read : Json → Option α) : Json → Option (List α)
  | .array items => items.mapM read
  | _ => none

def stringList? : Json → Option (List String) := list? asString?

def bounded? (low high : Int) (v : Json) : Option Int :=
  v.asInt?.filter fun n => low ≤ n && n ≤ high

def stringFields? : Json → Option (List (String × String))
  | .object fields => fields.mapM fun (k, v) => v.asString?.map (k, ·)
  | _ => none

end Json

namespace Fields

def need? {α : Type} (fields : Fields) (key : String) (read : Json → Option α) : Option α :=
  (fields.get? key).bind read

def getOr? {α : Type} (fields : Fields) (key : String) (missing : α) (read : Json → Option α) :
    Option α :=
  match fields.get? key with
  | none => some missing
  | some v => read v

def optional? {α : Type} (fields : Fields) (key : String) (read : Json → Option α) :
    Option (Option α) :=
  fields.getOr? key none (Json.optional? read)

end Fields

end Provision
