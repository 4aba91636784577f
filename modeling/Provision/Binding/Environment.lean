import Provision.Binding.Basic
import Provision.SortedMap

namespace Provision

structure Environment where
  vars : SortedMap String
deriving DecidableEq, Repr, Inhabited

namespace Environment

def empty : Environment := ⟨[]⟩

def ofList (vars : List (String × String)) : Environment := ⟨SortedMap.ofList vars⟩

def get? (env : Environment) (key : String) : Option String := env.vars.get? key

def size (env : Environment) : Nat := env.vars.length

def isEmpty (env : Environment) : Bool := env.vars.isEmpty

def insertIfAbsent (env : Environment) (key value : String) : Bool × Environment :=
  if env.vars.contains key then (false, env) else (true, ⟨env.vars.insert key value⟩)

def overlay (env : Environment) (extra : SortedMap String) : SortedMap String :=
  extra.foldl (fun vars (k, v) => vars.insert k v) env.vars

def step (state : Environment × Insertion) (b : Binding) : Environment × Insertion :=
  match state.1.get? b.key with
  | some existing => (state.1, state.2.addExisting b existing)
  | none => ((state.1.insertIfAbsent b.key b.value).2, state.2.addInserted b.key)

/-- Sets each key that is not set yet. -/
def insertAll (env : Environment) (bindings : List Binding) : Environment × Insertion :=
  bindings.foldl step (env, .none)

end Environment

end Provision
