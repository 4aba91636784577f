import Provision.Guard

namespace Provision

structure Ownership where
  path : String
  owner : String
  group : Option String := none
  recursive : Bool := true
deriving DecidableEq, Repr

namespace Ownership

def describe (o : Ownership) : String :=
  "Own " ++ o.path ++ " by " ++ match o.group with
    | some group => o.owner ++ ":" ++ group
    | none => o.owner

def guard (o : Ownership) : Guard := ⟨.notIf, .ownedBy o.path o.owner⟩

variable {σ : Type}

def check (host : Host σ) (o : Ownership) : Action σ Drift := do
  match ← Action.ofReply (perform host (.owner o.path)) with
  | some owner =>
    if owner = o.owner then return .inSync
    return .drifted ("chown " ++ o.path ++ " from " ++ owner ++ " to " ++ o.owner)
  | none => return .drifted ("chown " ++ o.path ++ " (does not exist yet)")

def apply (host : Host σ) (o : Ownership) : Action σ Change := do
  Action.ofReply (perform host (.chown o.path o.owner o.group o.recursive))
  return .converged (o.path ++ " owned by " ++ o.owner)

def toFields (o : Ownership) : Fields :=
  [("path", .string o.path), ("owner", .string o.owner), ("group", .optionString o.group),
    ("recursive", .bool o.recursive)]

def fieldNames : List String := ["path", "owner", "group", "recursive"]

def ofFields? (fields : Fields) : Option Ownership := do
  let path ← fields.need? "path" Json.asString?
  let owner ← fields.need? "owner" Json.asString?
  let group ← fields.optional? "group" Json.asString?
  let recursive ← fields.getOr? "recursive" true Json.asBool?
  some ⟨path, owner, group, recursive⟩

end Ownership

end Provision
