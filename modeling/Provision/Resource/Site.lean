import Provision.Path
import Provision.Resource.RenderedFile

namespace Provision

structure Site where
  template : String := "web_app.conf.j2"
  serverName : String
  serverAliases : List String := []
  serverPort : Nat := 80
  docroot : String
  allowOverride : Option String := none
  params : Fields := []
  enabled : Bool := true
  sitesAvailable : Option String := none
  sitesEnabled : Option String := none

inductive LinkState where
  | missing
  | correct
  | wrongTarget (target : String)
deriving DecidableEq, Repr

namespace Site

def describe (s : Site) (name : String) : String :=
  "Site " ++ name ++ " (" ++ s.serverName ++ ":" ++ Text.natText s.serverPort ++ "), " ++
    if s.enabled then "enabled" else "disabled"

def problem? (s : Site) : Option String :=
  if Text.isBlankText s.serverName then some "server_name is empty"
  else if s.serverPort = 0 then some "server_port must be non-zero"
  else none

def configPath (s : Site) (name : String) : String :=
  Path.join (s.sitesAvailable.getD "/etc/apache2/sites-available") (name ++ ".conf")

def linkPath (s : Site) (name : String) : String :=
  Path.join (s.sitesEnabled.getD "/etc/apache2/sites-enabled") (name ++ ".conf")

/-- The properties, with the further values laid over them. -/
def paramFields (s : Site) (name : String) : Fields :=
  s.params.foldl (fun fs (k, v) => Fields.set fs k v)
    [("name", .string name), ("server_name", .string s.serverName),
      ("server_aliases", .strings s.serverAliases), ("server_port", .nat s.serverPort),
      ("docroot", .string s.docroot), ("allow_override", .optionString s.allowOverride)]

def context (s : Site) (name : String) (node : Json) : Json :=
  .object [("params", .object (s.paramFields name)), ("node", node)]

variable {σ : Type}

def render (host : Host σ) (s : Site) (name : String) : Action σ Rendering := do
  let context ← Action.getContext
  Rendering.make host (s.configPath name) s.template (s.context name context.node)

def linkState (host : Host σ) (s : Site) (name : String) : Action σ LinkState := do
  match ← Action.ofReply (perform host (.readLink (s.linkPath name))) with
  | none => return .missing
  | some target =>
    return if Path.same target (s.configPath name) then .correct else .wrongTarget target

def linkDrift (s : Site) (name : String) : LinkState → List String
  | .correct => if s.enabled then [] else ["disable " ++ name]
  | .missing => if s.enabled then ["enable " ++ name] else []
  | .wrongTarget _ => if s.enabled then ["enable " ++ name] else ["disable " ++ name]

def check (host : Host σ) (s : Site) (name : String) : Action σ Drift := do
  let rendering ← s.render host name
  let state ← s.linkState host name
  let changes := (match rendering.drift with
    | .drifted change => [change]
    | .inSync => []) ++ s.linkDrift name state
  if changes.isEmpty then return .inSync
  return .drifted (Text.joinWith ", " changes)

def settleLink (host : Host σ) (s : Site) (name : String) (state : LinkState) :
    Action σ (List String) := do
  let config := s.configPath name
  let link := s.linkPath name
  match s.enabled, state with
  | true, .correct | false, .missing => return []
  | true, .missing =>
    Action.ofReply (perform host (.symlink config link))
    return ["enabled " ++ name]
  | true, .wrongTarget _ =>
    Action.ofReply (perform host (.remove link))
    Action.ofReply (perform host (.symlink config link))
    return ["enabled " ++ name]
  | false, _ =>
    Action.ofReply (perform host (.remove link))
    return ["disabled " ++ name]

def apply (host : Host σ) (s : Site) (name : String) : Action σ Change := do
  let rendering ← s.render host name
  let written ← rendering.write host
  let state ← s.linkState host name
  let linked ← s.settleLink host name state
  let changes := (match written with
    | .converged detail => [detail]
    | .unchanged => []) ++ linked
  if changes.isEmpty then return .unchanged
  return .converged (Text.joinWith ", " changes)

def toFields (s : Site) : Fields :=
  [("template", .string s.template), ("server_name", .string s.serverName),
    ("server_aliases", .strings s.serverAliases), ("server_port", .nat s.serverPort),
    ("docroot", .string s.docroot), ("allow_override", .optionString s.allowOverride),
    ("params", .object s.params), ("enabled", .bool s.enabled),
    ("sites_available", .optionString s.sitesAvailable),
    ("sites_enabled", .optionString s.sitesEnabled)]

def fieldNames : List String :=
  ["template", "server_name", "server_aliases", "server_port", "docroot", "allow_override",
    "params", "enabled", "sites_available", "sites_enabled"]

def ofFields? (fields : Fields) : Option Site := do
  let template ← fields.getOr? "template" "web_app.conf.j2" Json.asString?
  let serverName ← fields.need? "server_name" Json.asString?
  let serverAliases ← fields.getOr? "server_aliases" [] Json.stringList?
  let serverPort ← fields.getOr? "server_port" 80 (Json.bounded? 0 65535)
  let docroot ← fields.need? "docroot" Json.asString?
  let allowOverride ← fields.optional? "allow_override" Json.asString?
  let params ← fields.getOr? "params" [] Json.asObject?
  let enabled ← fields.getOr? "enabled" true Json.asBool?
  let sitesAvailable ← fields.optional? "sites_available" Json.asString?
  let sitesEnabled ← fields.optional? "sites_enabled" Json.asString?
  some ⟨template, serverName, serverAliases, serverPort.toNat, docroot, allowOverride, params,
    enabled, sitesAvailable, sitesEnabled⟩

def same (a b : Site) : Bool :=
  a.template == b.template && a.serverName == b.serverName && a.serverAliases == b.serverAliases &&
    a.serverPort == b.serverPort && a.docroot == b.docroot && a.allowOverride == b.allowOverride &&
    (Json.object a.params).same (.object b.params) && a.enabled == b.enabled &&
    a.sitesAvailable == b.sitesAvailable && a.sitesEnabled == b.sitesEnabled

end Site

end Provision
