import Provision.Json.Printer
import Provision.Text.Quoted
import Provision.Error

namespace Provision

structure Binding where
  key : String
  value : String
deriving DecidableEq, Repr, Inhabited

namespace Binding

/-- The text that stands for a value: a string as it is, null as nothing, else its JSON text. -/
def textOf : Json → String
  | .string s => s
  | .null => ""
  | v => v.compact

def ofFields (fields : Fields) : List Binding := fields.map fun (k, v) => ⟨k, textOf v⟩

end Binding

inductive ConflictPolicy where
  | warn
  | fail
deriving DecidableEq, Repr, Inhabited

namespace ConflictPolicy

def name : ConflictPolicy → String
  | .warn => "warn"
  | .fail => "fail"

def ofName? : String → Option ConflictPolicy
  | "warn" => some .warn
  | "fail" => some .fail
  | _ => none

end ConflictPolicy

structure Conflict where
  key : String
  existing : String
  requested : String
deriving DecidableEq, Repr

namespace Conflict

def toError (c : Conflict) (target : String) : Error :=
  .propagationConflict target c.key c.existing c.requested

def warning (c : Conflict) (target : String) : String :=
  c.key ++ " in " ++ target ++ " is " ++ Text.quote c.existing ++ ", requested " ++
    Text.quote c.requested ++ "; left untouched"

end Conflict

/-- The account of a pass: each binding is inserted, present already, or in conflict. -/
structure Insertion where
  inserted : List String
  present : List String
  conflicts : List Conflict
deriving DecidableEq, Repr

namespace Insertion

def none : Insertion := ⟨[], [], []⟩

def isChanged (r : Insertion) : Bool := !r.inserted.isEmpty

def addInserted (r : Insertion) (key : String) : Insertion := { r with inserted := r.inserted ++ [key] }

def addExisting (r : Insertion) (b : Binding) (existing : String) : Insertion :=
  if existing = b.value then { r with present := r.present ++ [b.key] }
  else { r with conflicts := r.conflicts ++ [⟨b.key, existing, b.value⟩] }

end Insertion

end Provision
