import Provision.Resource.Basic

namespace Provision

inductive RunNode where
  | node (label : String) (resource : Option Resource) (children : List RunNode)

namespace RunNode

def label : RunNode → String
  | .node l _ _ => l

def resource? : RunNode → Option Resource
  | .node _ r _ => r

def children : RunNode → List RunNode
  | .node _ _ cs => cs

def ofResource (r : Resource) (children : List RunNode) : RunNode := .node r.id (some r) children

def group (label : String) (children : List RunNode) : RunNode := .node label none children

mutual

def resources : RunNode → List Resource
  | .node _ r cs => r.toList ++ resourcesOf cs

def resourcesOf : List RunNode → List Resource
  | [] => []
  | n :: ns => resources n ++ resourcesOf ns

end

mutual

def isEmpty : RunNode → Bool
  | .node _ r cs => r.isNone && areEmpty cs

def areEmpty : List RunNode → Bool
  | [] => true
  | n :: ns => isEmpty n && areEmpty ns

end

mutual

/-- The subtree with the resources that satisfy the predicate, and only nodes that lead to one. -/
def filter (keep : Resource → Bool) : RunNode → RunNode
  | .node label r cs => .node label (r.filter keep) (filterAll keep cs)

def filterAll (keep : Resource → Bool) : List RunNode → List RunNode
  | [] => []
  | n :: ns =>
    let n := filter keep n
    if n.isEmpty then filterAll keep ns else n :: filterAll keep ns

end

end RunNode

structure RunList where
  nodes : List RunNode

/-- Where names of resources must differ. -/
inductive NameScope where
  | perKind
  | global
  | unrestricted
deriving DecidableEq, Repr, Inhabited

namespace NameScope

def name : NameScope → String
  | .perKind => "per_kind"
  | .global => "global"
  | .unrestricted => "unrestricted"

def ofName? : String → Option NameScope
  | "per_kind" => some .perKind
  | "global" => some .global
  | "unrestricted" => some .unrestricted
  | _ => none

def key? (scope : NameScope) (r : Resource) : Option (Option Kind × String) :=
  match scope with
  | .perKind => some (some r.kind, r.name)
  | .global => some (none, r.name)
  | .unrestricted => none

end NameScope

namespace RunList

def empty : RunList := ⟨[]⟩

def resources (l : RunList) : List Resource := RunNode.resourcesOf l.nodes

def size (l : RunList) : Nat := l.resources.length

def isEmpty (l : RunList) : Bool := RunNode.areEmpty l.nodes

def ownError? (r : Resource) : Option Error :=
  if Text.isBlankText r.name then some (.invalidResource r.id "name must not be empty")
  else r.spec.problem?.map (.invalidResource r.id ·)

def firstError? (scope : NameScope) : List (Option Kind × String) → List Resource → Option Error
  | _, [] => none
  | seen, r :: rest =>
    match ownError? r with
    | some e => some e
    | none =>
      match scope.key? r with
      | none => firstError? scope seen rest
      | some key =>
        if seen.contains key then some (.duplicateResource r.id)
        else firstError? scope (key :: seen) rest

/-- Accepts a list whose resources are fit and, within the scope, differ in their names. -/
def validate (l : RunList) (scope : NameScope) : Except Error Unit :=
  match firstError? scope [] l.resources with
  | some e => .error e
  | none => .ok ()

def filter (l : RunList) (keep : Resource → Bool) : RunList := ⟨RunNode.filterAll keep l.nodes⟩

/-- What a target asks for: a kind, a kind and a part of the name, or a part of the name. -/
structure Target where
  kind : Option String
  name : Option String

def Target.parse (text : String) : Target :=
  match Text.splitFirst? "." text with
  | none => ⟨some text, none⟩
  | some (kind, name) =>
    if (Kind.ofAlias? kind).isSome then ⟨some kind, some name⟩ else ⟨none, some text⟩

def Target.holds (t : Target) (r : Resource) : Bool :=
  (t.kind.all fun k => Kind.ofAlias? k == some r.kind) && t.name.all (Text.containsText · r.name)

def filterByTarget (l : RunList) : Option String → RunList
  | none => l
  | some t => l.filter (Target.parse t).holds

end RunList

end Provision
