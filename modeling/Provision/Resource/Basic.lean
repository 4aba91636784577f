import Provision.Resource.Spec

namespace Provision

structure Resource where
  name : String
  spec : Spec
  guards : List Guard := []
  bestEffort : Bool := false
  /-- Takes the place of the run's policy. -/
  onGuardError : Option GuardErrorPolicy := none
  notifies : List String := []

namespace Resource

def kind (r : Resource) : Kind := r.spec.kind

def id (r : Resource) : String := r.kind.tag ++ "[" ++ r.name ++ "]"

def describe (r : Resource) : String := r.spec.describe r.name

/-- The guards of the kind, then the declared ones. -/
def allGuards (r : Resource) : List Guard := r.spec.implicitGuards ++ r.guards

def toFields (r : Resource) : Fields :=
  ("name", .string r.name) :: r.spec.toFields ++
    (if r.guards.isEmpty then [] else [("guards", .array (r.guards.map Guard.toJson))]) ++
    [("best_effort", .bool r.bestEffort)] ++
    (match r.onGuardError with
    | some p => [("on_guard_error", .string p.name)]
    | none => []) ++
    if r.notifies.isEmpty then [] else [("notifies", .strings r.notifies)]

def toJson (r : Resource) : Json := .object r.toFields

def ofFields? (fields : Fields) : Option Resource := do
  let name ← fields.need? "name" Json.asString?
  let guards ← fields.getOr? "guards" [] (Json.list? Guard.ofJson?)
  let bestEffort ← fields.getOr? "best_effort" false Json.asBool?
  let onGuardError ← fields.optional? "on_guard_error" fun v =>
    (v.alternative? false).bind GuardErrorPolicy.ofName?
  let notifies ← fields.getOr? "notifies" [] Json.stringList?
  let spec ← Spec.ofFields? fields
  some ⟨name, spec, guards, bestEffort, onGuardError, notifies⟩

def ofJson? (v : Json) : Option Resource := v.asObject?.bind ofFields?

/-- Equality of resources: values for templates are compared as JSON values. -/
def same (a b : Resource) : Bool :=
  a.name == b.name && a.spec.same b.spec && a.guards == b.guards && a.bestEffort == b.bestEffort &&
    a.onGuardError == b.onGuardError && a.notifies == b.notifies

end Resource

end Provision
