import Provision.Binding.Environment
import Provision.Host.Call
import Provision.Report.Basic

namespace Provision

inductive Event where
  | runStart (total : Nat)
  | start (id description : String)
  | phase (id : String) (phase : Phase)
  | complete (id : String) (outcome : Outcome)
  | runComplete (state : RunState)
deriving DecidableEq, Repr

/-- What resources are applied in. -/
structure Context where
  dryRun : Bool
  verbose : Bool
  env : Environment
  node : Json
  onConflict : ConflictPolicy
  warnings : List String
deriving Inhabited

structure World (σ : Type) where
  machine : σ
  context : Context
  calls : List Call
  events : List Event

/-- A step of a run that may fail; what it did before it failed stays done. -/
abbrev Action (σ α : Type) := ExceptT Error (StateM (World σ)) α

variable {σ : Type}

def perform (host : Host σ) (c : Call) : StateM (World σ) c.Reply := fun w =>
  let r := host.answer c w.machine
  (r.1, { w with machine := r.2, calls := w.calls ++ [c] })

def emit (e : Event) : StateM (World σ) Unit :=
  modify fun w => { w with events := w.events ++ [e] }

def getContext : StateM (World σ) Context := do return (← get).context

def modifyContext (f : Context → Context) : StateM (World σ) Unit :=
  modify fun w => { w with context := f w.context }

namespace Action

def getContext : Action σ Context := ExceptT.lift Provision.getContext

def modifyContext (f : Context → Context) : Action σ Unit := ExceptT.lift (Provision.modifyContext f)

def ofReply {α : Type} (reply : StateM (World σ) (Except Fault α)) : Action σ α :=
  ExceptT.mk do return (← reply).mapError .collaborator

end Action

/-- Runs a command in the environment of the run with more variables laid over it. -/
def runCommand (host : Host σ) (command : String) (user cwd : Option String)
    (extra : SortedMap String) : StateM (World σ) (Except Fault CommandOutput) := do
  let context ← getContext
  perform host (.run command user cwd (context.env.overlay extra))

end Provision
