import Provision.Inventory.Basic
import Provision.Recipe.Declaration

namespace Provision

structure Recipe where
  runList : RunList
  node : Json

namespace Recipe

def tableOf (key : String) : Json → Except LoadError Fields
  | .object fields => .ok fields
  | _ => .error (.ofText ("`" ++ key ++ "` must be a table"))

def search (inventory : Inventory) (name : String) (table : Json) : Except LoadError Record := do
  let kind ← match (table.get? "kind").bind Json.asString? with
    | some kind => .ok kind
    | none => .error (.ofText ("search." ++ name ++ " needs a `kind`"))
  let filter ← match (table.get? "filter").bind Json.asString? with
    | some query => (Filter.parse query).mapError .ofError
    | none => .ok .all
  (inventory.first kind filter).mapError fun e => (LoadError.ofError e).within ("search." ++ name)

def bindSearches (inventory : Inventory) : List (String × Json) → Scope → Except LoadError Scope
  | [], scope => .ok scope
  | (name, table) :: rest, scope => do
    let record ← search inventory name table
    bindSearches inventory rest (Fields.set scope name record.toJson)

def bindVars : List (String × Json) → Scope → Except LoadError Scope
  | [], scope => .ok scope
  | (name, value) :: rest, scope => do
    let value ← (render scope value).mapError (·.within ("vars." ++ name))
    bindVars rest (Fields.set scope name value)

def declarations : Json → Except LoadError (List Declaration)
  | .array items => .ok (Declaration.ofItems items)
  | _ => .error (.ofText "`resource` must be an array of tables")

def ifThere {α : Type} (v : Option Json) (missing : α) (load : Json → Except LoadError α) :
    Except LoadError α :=
  match v with
  | none => .ok missing
  | some v => load v

/-- The recipe of a document. A key other than the known ones is refused; where there are several,
the first of those left after the known ones were taken out is named. -/
def ofDocument (document : Fields) (inventory : Inventory) (settings : Settings) :
    Except LoadError Recipe := do
  let scope : Scope := [("node", inventory.nodeJson)]
  let (searches, document) := document.take? "search"
  let scope ← ifThere searches scope fun v => do bindSearches inventory (← tableOf "search" v) scope
  let (vars, document) := document.take? "vars"
  let scope ← ifThere vars scope fun v => do bindVars (← tableOf "vars" v) scope
  let (resources, document) := document.take? "resource"
  let nodes ← ifThere resources [] fun v => do loadAll settings scope (← declarations v)
  match document with
  | [] => .ok ⟨⟨nodes⟩, inventory.nodeJson⟩
  | (key, _) :: _ => .error (.ofText ("unknown top-level key `" ++ key ++ "`"))

def parse (text : String) (inventory : Inventory) (settings : Settings) : Except LoadError Recipe :=
  match Toml.parse? text with
  | some document => ofDocument document inventory settings
  | none => .error (.ofParty .toml "invalid document")

end Recipe

end Provision
