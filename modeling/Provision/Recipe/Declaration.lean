import Provision.Recipe.Text
import Provision.Settings

namespace Provision.Recipe

inductive Declaration where
  | table (fields : Fields) (children : List Declaration)
  | badChildren
  | notTable

namespace Declaration

mutual

def ofJson : Json → Declaration
  | .object fields =>
    match childrenOf fields with
    | some children => .table (Fields.swapRemove fields "children") children
    | none => .badChildren
  | _ => .notTable

/-- The declarations under `children`; none where no array stands there. -/
def childrenOf : List (String × Json) → Option (List Declaration)
  | [] => some []
  | (k, v) :: rest =>
    if k = "children" then
      match v with
      | .array items => some (ofItems items)
      | _ => none
    else childrenOf rest

def ofItems : List Json → List Declaration
  | [] => []
  | v :: rest => ofJson v :: ofItems rest

end

end Declaration

def entriesOf : Json → List Json
  | .array items => items
  | v => [v]

/-- The guard of an entry: a string is a command to run. -/
def guardFields? (polarity : Polarity) : Json → Option Fields
  | .string command => some [("check", .string "command"), ("command", .string command),
      ("polarity", .string polarity.name)]
  | .object fields => some (Fields.set fields "polarity" (.string polarity.name))
  | _ => none

def polarityGuards (polarity : Polarity) (v : Option Json) : Except LoadError (List Json) :=
  match v with
  | none => .ok []
  | some v => (entriesOf v).mapM fun entry =>
      match guardFields? polarity entry with
      | some fields => .ok (.object fields)
      | none => .error (.ofText ("`" ++ polarity.name ++ "` entries must be commands or tables"))

/-- Puts the entries of `only_if` and `not_if`, if there are any, in place of the guards. -/
def collectGuards (fields : Fields) : Except LoadError Fields := do
  let (onlyIf, fields) := fields.take? Polarity.onlyIf.name
  let onlyIf ← polarityGuards .onlyIf onlyIf
  let (notIf, fields) := fields.take? Polarity.notIf.name
  let notIf ← polarityGuards .notIf notIf
  let guards := onlyIf ++ notIf
  .ok (if guards.isEmpty then fields else fields.set "guards" (.array guards))

def setMissing (fields : Fields) (key : String) (value : Json) : Fields :=
  if fields.contains key then fields else fields.set key value

/-- The reload command is notified, after the author's commands and not twice. -/
def addReload (command : String) (fields : Fields) : Fields :=
  match (fields.get? "notifies").getD (.array []) with
  | .array items =>
    if items.any (·.same (.string command)) then fields
    else fields.set "notifies" (.array (items ++ [.string command]))
  | _ => fields

/-- Values for what the recipe leaves out, and the tag of the kind in place of another name. -/
def applyDefaults (settings : Settings) (kind : String) (fields : Fields) : Fields :=
  match Kind.ofAlias? kind with
  | none => fields
  | some k =>
    let fields := match k with
      | .site =>
        let fields := setMissing fields "sites_available" (.string settings.sites.sitesAvailable)
        let fields := setMissing fields "sites_enabled" (.string settings.sites.sitesEnabled)
        addReload settings.sites.reloadCommand fields
      | .scheduledJob => setMissing fields "user" (.string settings.cronUser)
      | _ => fields
    fields.set "kind" (.string k.tag)

inductive Entry where
  | group (name : String)
  | resource (r : Resource)

def Entry.node : Entry → List RunNode → RunNode
  | .group name => .group ("group[" ++ name ++ "]")
  | .resource r => .ofResource r

def groupKind : String := "group"

def Entry.ofFields (settings : Settings) (fields : Fields) : Except LoadError Entry := do
  let name ← match (fields.get? "name").bind Json.asString? with
    | some name => .ok name
    | none => .error (.ofText "resource needs a `name`")
  let kind ← match (fields.get? "kind").bind Json.asString? with
    | some kind => .ok kind
    | none => .error (.ofText ("resource " ++ name ++ " needs a `kind`"))
  if kind = groupKind then .ok (.group name)
  else do
    let fields ← collectGuards fields
    match Resource.ofFields? (applyDefaults settings kind fields) with
    | some r => .ok (.resource r)
    | none => .error ((LoadError.ofParty .json "invalid resource").within
        ("invalid " ++ kind ++ " resource " ++ name))

mutual

/-- The node that a table declares: its own strings first, then its children. -/
def Declaration.load (settings : Settings) (scope : Scope) : Declaration → Except LoadError RunNode
  | .notTable => .error (.ofText "`resource` must be a table")
  | .badChildren => .error (.ofText "`children` must be an array of tables")
  | .table fields children => do
    let fields ← renderFields scope fields
    let entry ← Entry.ofFields settings fields
    let children ← loadAll settings scope children
    .ok (entry.node children)

def loadAll (settings : Settings) (scope : Scope) : List Declaration → Except LoadError (List RunNode)
  | [] => .ok []
  | d :: rest => do
    let node ← d.load settings scope
    let rest ← loadAll settings scope rest
    .ok (node :: rest)

end

end Provision.Recipe
