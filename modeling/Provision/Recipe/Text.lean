import Provision.LoadError
import Provision.Template.Render
import Provision.Text.Quoted

namespace Provision.Recipe

abbrev Scope := Fields

def openMark : String := "\x7b\x7b"

def closeMark : String := "\x7d\x7d"

def statementMark : String := "\x7b%"

/-- The expression of a string that holds nothing but one expression. -/
def soleExpression? (text : String) : Option String := do
  let inner ← Text.stripLead? openMark (Text.trim text)
  let inner ← Text.stripTail? closeMark inner
  if Text.containsText openMark inner || Text.containsText closeMark inner then none
  else some (Text.trim inner)

def isTemplate (text : String) : Bool :=
  Text.containsText openMark text || Text.containsText statementMark text

def evaluate (scope : Scope) (text : String) : Except LoadError Json := do
  let e ← (Template.Expr.parse text).mapError fun f =>
    (LoadError.ofParty .template f.message).within ("invalid expression `" ++ text ++ "`")
  let v ← (e.eval (.object scope)).mapError fun f =>
    (LoadError.ofParty .template f.message).within ("could not evaluate `" ++ text ++ "`")
  match v.toJson? with
  | some v => .ok v
  | none => .error (.ofParty .json "value has no JSON form")

def renderTemplate (scope : Scope) (text : String) : Except LoadError String :=
  (Template.render (Template.withoutFinalNewline text) (.object scope)).mapError fun f =>
    (LoadError.ofParty .template f.message).within ("could not render " ++ Text.quote text)

/-- What a string stands for. -/
def renderString (scope : Scope) (text : String) : Except LoadError Json :=
  match soleExpression? text with
  | some e => evaluate scope e
  | none => if isTemplate text then (renderTemplate scope text).map .string else .ok (.string text)

mutual

def render (scope : Scope) : Json → Except LoadError Json
  | .string s => renderString scope s
  | .array items => (renderItems scope items).map .array
  | .object fields => (renderFields scope fields).map .object
  | v => .ok v

def renderItems (scope : Scope) : List Json → Except LoadError (List Json)
  | [] => .ok []
  | v :: rest => do
    let v ← render scope v
    let rest ← renderItems scope rest
    .ok (v :: rest)

def renderFields (scope : Scope) : List (String × Json) → Except LoadError Fields
  | [] => .ok []
  | (k, v) :: rest => do
    let v ← render scope v
    let rest ← renderFields scope rest
    .ok ((k, v) :: rest)

end

end Provision.Recipe
