import Provision.Inventory.Filter
import Provision.Json.Decode
import Provision.SortedMap

namespace Provision

structure Inventory where
  node : Fields
  search : SortedMap (List Record)
deriving Inhabited

namespace Inventory

def empty : Inventory := ⟨[], []⟩

def records (inv : Inventory) (kind : String) : List Record := (inv.search.get? kind).getD []

def insert (inv : Inventory) (kind : String) (record : Record) : Inventory :=
  { inv with search := inv.search.insert kind (inv.records kind ++ [record]) }

def query (inv : Inventory) (kind : String) (filter : Filter) : List Record :=
  (inv.records kind).filter filter.holds

def first (inv : Inventory) (kind : String) (filter : Filter) : Except Error Record :=
  match inv.query kind filter with
  | r :: _ => .ok r
  | [] => .error (.preconditionNotMet
      (if filter.isEmpty then "no '" ++ kind ++ "' record in inventory"
        else "no '" ++ kind ++ "' record matches the search filter"))

def nodeJson (inv : Inventory) : Json := .object inv.node

def fieldNames : List String := ["node", "search"]

def searchOfJson? : Json → Option (SortedMap (List Record))
  | .object fields => do
    let entries ← fields.mapM fun (k, v) => (Json.list? Record.ofJson? v).map (k, ·)
    some (SortedMap.ofList entries)
  | _ => none

def ofFields? (fields : Fields) : Option Inventory := do
  let node ← fields.getOr? "node" [] Json.asObject?
  let search ← fields.getOr? "search" [] searchOfJson?
  some ⟨node, search⟩

def ofJson? (v : Json) : Option Inventory := (v.record? fieldNames).bind ofFields?

/-- The known fields of a record in JSON text; other fields are not looked into, and a known
field may stand there once. -/
def knownFields? (names : List String) : Source → Option (List (String × Source))
  | .object fields => do
    let fields ← fields.mapM fun (k, v) => k.map (·, v)
    let known := fields.filter fun (k, _) => names.contains k
    if (known.map (·.1)).Nodup then some known else none
  | .array items => if items.length ≤ names.length then some (names.zip items) else none
  | _ => none

def parse? (text : String) : Option Inventory := do
  let source ← Source.read? text
  let known ← knownFields? fieldNames source
  let fields ← known.mapM fun (k, v) => (v.toJson? (Source.maxDepth - 1)).map (k, ·)
  ofFields? fields

end Inventory

end Provision
