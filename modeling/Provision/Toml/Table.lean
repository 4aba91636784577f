import Provision.Json.Basic

namespace Provision.Toml

inductive Origin where
  | header
  | path
  | dottedKey
deriving DecidableEq, Repr

inductive Item where
  | value (v : Json)
  | table (origin : Origin) (entries : List (String × Item))
  | tables (elements : List (List (String × Item)))

abbrev Entries := List (String × Item)

namespace Item

mutual

def toJson : Item → Json
  | .value v => v
  | .table _ entries => .object (entriesToJson entries)
  | .tables elements => .array (elementsToJson elements)

def entriesToJson : List (String × Item) → Fields
  | [] => []
  | (k, i) :: rest => (k, toJson i) :: entriesToJson rest

def elementsToJson : List (List (String × Item)) → List Json
  | [] => []
  | e :: rest => .object (entriesToJson e) :: elementsToJson rest

end

end Item

namespace Entries

/-- Gives a key a new item made from the one it has. A key keeps its place, a new key goes to the
end. -/
def alter (key : String) (f : Option Item → Option Item) : Entries → Option Entries
  | [] => (f none).map fun item => [(key, item)]
  | (k, item) :: rest =>
    if k = key then (f (some item)).map fun item => (k, item) :: rest
    else (alter key f rest).map ((k, item) :: ·)

/-- Works on the table of a repeated header that was opened last. -/
def onLast (f : Entries → Option Entries) (elements : List Entries) : Option Item := do
  let last ← elements.getLast?
  let last ← f last
  some (.tables (elements.dropLast ++ [last]))

def define (value : Json) : List String → Entries → Option Entries
  | [], _ => none
  | [key], entries => entries.alter key fun
    | none => some (.value value)
    | some _ => none
  | key :: next :: rest, entries => entries.alter key fun
    | none => (define value (next :: rest) []).map (.table .dottedKey)
    | some (.table origin sub) =>
      if origin = .dottedKey ∨ (origin = .path ∧ rest ≠ []) then
        (define value (next :: rest) sub).map (.table origin)
      else none
    | some (.tables elements) =>
      if rest = [] then none else onLast (define value (next :: rest)) elements
    | some (.value _) => none

/-- Works on the table that a path leads to, and makes the tables that are missing on the way. -/
def descend (f : Entries → Option Entries) : List String → Entries → Option Entries
  | [], entries => f entries
  | key :: rest, entries => entries.alter key fun
    | none => (descend f rest []).map (.table .path)
    | some (.table origin sub) => (descend f rest sub).map (.table origin)
    | some (.tables elements) => onLast (descend f rest) elements
    | some (.value _) => none

def fill (body : List (List String × Json)) (entries : Entries) : Option Entries :=
  body.foldlM (fun entries (key, value) => define value key entries) entries

def objectOf? (body : List (List String × Json)) : Option Json :=
  (fill body []).map fun entries => .object (Item.entriesToJson entries)

end Entries

structure Section where
  path : List String
  key : String
  repeated : Bool
  body : List (List String × Json)

namespace Section

def open? (s : Section) (parent : Entries) : Option Entries :=
  if s.repeated then do
    let table ← Entries.fill s.body []
    Entries.alter s.key (fun
      | none => some (.tables [table])
      | some (.tables elements) => some (.tables (elements ++ [table]))
      | some _ => none) parent
  else
    match parent.lookup s.key with
    | none => (Entries.fill s.body []).map fun table => parent ++ [(s.key, .table .header table)]
    | some (.table .path sub) => (Entries.fill s.body sub).map fun table =>
        parent.filter (·.1 != s.key) ++ [(s.key, .table .header table)]
    | some _ => none

end Section

structure Document where
  body : List (List String × Json)
  sections : List Section

def Document.toFields? (d : Document) : Option Fields := do
  let root ← Entries.fill d.body []
  let root ← d.sections.foldlM (fun root s => Entries.descend s.open? s.path root) root
  some (Item.entriesToJson root)

end Provision.Toml
