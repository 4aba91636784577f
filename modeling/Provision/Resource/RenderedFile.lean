import Provision.Host.World

namespace Provision

structure RenderedFile where
  path : String
  source : String
  values : Fields := []

structure Rendering where
  path : String
  content : String
  existing : Option String

namespace Rendering

variable {σ : Type}

def make (host : Host σ) (path template : String) (context : Json) : Action σ Rendering := do
  let content ← Action.ofReply (perform host (.render template context))
  let existing ← Action.ofReply (perform host (.read path))
  return ⟨path, content, existing⟩

def isCurrent (r : Rendering) : Bool := r.existing == some r.content

def drift (r : Rendering) : Drift :=
  if r.isCurrent then .inSync
  else if r.existing.isSome then .drifted ("update " ++ r.path)
  else .drifted ("create " ++ r.path)

def write (host : Host σ) (r : Rendering) : Action σ Change := do
  if r.isCurrent then return .unchanged
  Action.ofReply (perform host (.write r.path r.content))
  return .converged ((if r.existing.isSome then "updated " else "created ") ++ r.path)

end Rendering

namespace RenderedFile

def describe (f : RenderedFile) : String := "Render " ++ f.path ++ " from " ++ f.source

/-- The node, then the variables; a variable named `node` takes its place. -/
def context (f : RenderedFile) (node : Json) : Json :=
  .object (f.values.foldl (fun fs (k, v) => Fields.set fs k v) [("node", node)])

variable {σ : Type}

def render (host : Host σ) (f : RenderedFile) : Action σ Rendering := do
  let context ← Action.getContext
  Rendering.make host f.path f.source (f.context context.node)

def check (host : Host σ) (f : RenderedFile) : Action σ Drift := do
  return (← f.render host).drift

def apply (host : Host σ) (f : RenderedFile) : Action σ Change := do
  (← f.render host).write host

def toFields (f : RenderedFile) : Fields :=
  [("path", .string f.path), ("source", .string f.source), ("variables", .object f.values)]

def fieldNames : List String := ["path", "source", "variables"]

def ofFields? (fields : Fields) : Option RenderedFile := do
  let path ← fields.need? "path" Json.asString?
  let source ← fields.need? "source" Json.asString?
  let values ← fields.getOr? "variables" [] Json.asObject?
  some ⟨path, source, values⟩

def same (a b : RenderedFile) : Bool :=
  a.path == b.path && a.source == b.source && (Json.object a.values).same (.object b.values)

end RenderedFile

end Provision
