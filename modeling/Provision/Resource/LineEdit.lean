import Provision.Binding.Lines
import Provision.Host.World
import Provision.Pattern.Parser
import Provision.Pattern.Replace

namespace Provision

structure LineReplacement where
  pattern : String
  replacement : String
deriving DecidableEq, Repr

structure LineEdit where
  path : Option String := none
  lineSyntax : LineSyntax := .plain
  bindings : List Binding := []
  replace : Option LineReplacement := none
  onConflict : Option ConflictPolicy := none
deriving DecidableEq, Repr

namespace LineEdit

def targetName (e : LineEdit) : String := e.path.getD "process environment"

def describe (e : LineEdit) : String :=
  match e.replace with
  | some r => "Replace /" ++ r.pattern ++ "/ in " ++ e.targetName ++ " with " ++ r.replacement
  | none => "Ensure " ++ Text.natText e.bindings.length ++ " binding(s) in " ++ e.targetName

def problem? (e : LineEdit) : Option String :=
  match e.replace with
  | none => none
  | some r =>
    if e.path.isNone then some "replace requires a file path"
    else if !e.bindings.isEmpty then some "bindings and replace cannot be combined"
    else
      match Pattern.parse r.pattern with
      | .ok _ => none
      | .error m => some ("invalid pattern: " ++ m.message)

def describeInsertion (e : LineEdit) (r : Insertion) : String :=
  "inserted " ++ Text.joinWith ", " r.inserted ++ " into " ++ e.targetName ++
    if r.conflicts.isEmpty then ""
    else " (conflicting, left as is: " ++ Text.joinWith ", " (r.conflicts.map (·.key)) ++ ")"

variable {σ : Type}

def parsePattern (text : String) : Except Error Pattern :=
  (Pattern.parse text).mapError fun m => .pattern m.message

/-- Applies the policy on conflicts: a warning for each, or an error for the first. -/
def settle (e : LineEdit) (r : Insertion) : Action σ Unit := do
  let context ← Action.getContext
  match e.onConflict.getD context.onConflict, r.conflicts with
  | .fail, c :: _ => throw (c.toError e.targetName)
  | .fail, [] => return
  | .warn, conflicts =>
    Action.modifyContext fun x =>
      { x with warnings := x.warnings ++ conflicts.map (·.warning e.targetName) }

def readFile (host : Host σ) (path : String) : Action σ String := do
  return (← Action.ofReply (perform host (.read path))).getD ""

/-- The account of a pass over a copy of the target. -/
def preview (host : Host σ) (e : LineEdit) : Action σ Insertion :=
  match e.path with
  | some path => do
    let content ← readFile host path
    return (Binding.insertLines content e.bindings e.lineSyntax).2
  | none => do
    let context ← Action.getContext
    return (context.env.insertAll e.bindings).2

def insert (host : Host σ) (e : LineEdit) : Action σ Insertion :=
  match e.path with
  | some path => do
    let content ← readFile host path
    let (updated, r) := Binding.insertLines content e.bindings e.lineSyntax
    if r.isChanged then Action.ofReply (perform host (.write path updated))
    return r
  | none => do
    let context ← Action.getContext
    let (env, r) := context.env.insertAll e.bindings
    Action.modifyContext fun x => { x with env }
    return r

def checkReplace (host : Host σ) (e : LineEdit) (r : LineReplacement) : Action σ Drift :=
  match e.path with
  | none => return .inSync
  | some path => do
    let p ← parsePattern r.pattern
    let content ← readFile host path
    match p.replaceLines? r.replacement content with
    | some _ => return .drifted ("rewrite /" ++ r.pattern ++ "/ in " ++ path)
    | none => return .inSync

def applyReplace (host : Host σ) (e : LineEdit) (r : LineReplacement) : Action σ Change :=
  match e.path with
  | none => throw (.invalidResource e.targetName "replace requires a file path")
  | some path => do
    let p ← parsePattern r.pattern
    let content ← Action.ofReply (perform host (.read path))
    match content.bind (p.replaceLines? r.replacement) with
    | none => return .unchanged
    | some updated =>
      Action.ofReply (perform host (.write path updated))
      return .converged ("rewrote /" ++ r.pattern ++ "/ in " ++ path)

def check (host : Host σ) (e : LineEdit) : Action σ Drift :=
  match e.replace with
  | some r => e.checkReplace host r
  | none => do
    let r ← e.preview host
    e.settle r
    if r.isChanged then return .drifted (e.describeInsertion r)
    return .inSync

def apply (host : Host σ) (e : LineEdit) : Action σ Change :=
  match e.replace with
  | some r => e.applyReplace host r
  | none => do
    let previewed ← e.preview host
    e.settle previewed
    let r ← e.insert host
    if r.isChanged then return .converged (e.describeInsertion r)
    return .unchanged

def LineReplacement.toJson (r : LineReplacement) : Json :=
  .object [("pattern", .string r.pattern), ("replacement", .string r.replacement)]

def bindingsJson (bindings : List Binding) : Json :=
  .object (Fields.ofEntries (bindings.map fun b => (b.key, .string b.value)))

def toFields (e : LineEdit) : Fields :=
  [("path", .optionString e.path), ("syntax", .string e.lineSyntax.name),
    ("bindings", bindingsJson e.bindings),
    ("replace", .option (e.replace.map LineReplacement.toJson)),
    ("on_conflict", .optionString (e.onConflict.map ConflictPolicy.name))]

def fieldNames : List String := ["path", "syntax", "bindings", "replace", "on_conflict"]

def replacementOfJson? (v : Json) : Option LineReplacement := do
  let fields ← v.record? ["pattern", "replacement"]
  let pattern ← fields.need? "pattern" Json.asString?
  let replacement ← fields.need? "replacement" Json.asString?
  some ⟨pattern, replacement⟩

def ofFields? (fields : Fields) : Option LineEdit := do
  let path ← fields.optional? "path" Json.asString?
  let lineSyntax ← fields.getOr? "syntax" .plain fun v => (v.alternative? true).bind LineSyntax.ofName?
  let bindings ← fields.getOr? "bindings" [] fun v => v.asObject?.map Binding.ofFields
  let replace ← fields.optional? "replace" replacementOfJson?
  let onConflict ← fields.optional? "on_conflict" fun v =>
    (v.alternative? true).bind ConflictPolicy.ofName?
  some ⟨path, lineSyntax, bindings, replace, onConflict⟩

end LineEdit

end Provision
