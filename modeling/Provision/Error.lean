import Provision.Fault
import Provision.Text.Blank
import Provision.Text.Quoted

namespace Provision

inductive Category where
  | preconditionNotMet
  | guardEvaluation
  | actionFailed
  | propagationConflict
  | invalidRunList
deriving DecidableEq, Repr

namespace Category

def description : Category → String
  | .preconditionNotMet => "Precondition not met"
  | .guardEvaluation => "Guard could not be evaluated"
  | .actionFailed => "Action failed"
  | .propagationConflict => "Conflicting binding"
  | .invalidRunList => "Invalid run list"

/-- Whether such an error is met before any resource is applied. -/
def isFatalBeforeRun : Category → Bool
  | .preconditionNotMet | .invalidRunList => true
  | _ => false

def name : Category → String
  | .preconditionNotMet => "precondition_not_met"
  | .guardEvaluation => "guard_evaluation"
  | .actionFailed => "action_failed"
  | .propagationConflict => "propagation_conflict"
  | .invalidRunList => "invalid_run_list"

def all : List Category :=
  [.preconditionNotMet, .guardEvaluation, .actionFailed, .propagationConflict, .invalidRunList]

def ofName? (s : String) : Option Category := all.find? (·.name == s)

theorem ofName?_name (c : Category) : ofName? c.name = some c := by
  cases c <;> rfl

end Category

inductive Error where
  | preconditionNotMet (message : String)
  | guardEvaluation (message : String)
  | actionFailed (message stderr : String)
  /-- A key is there with another value than the one requested. -/
  | propagationConflict (target key existing requested : String)
  | duplicateResource (id : String)
  | invalidResource (id message : String)
  | pattern (message : String)
  | notText (path : String)
  | collaborator (fault : Fault)
deriving DecidableEq, Repr

namespace Error

/-- A command that ended with another status than those accepted. -/
def commandFailed (command : String) (exit : Int) (stderr : String) : Error :=
  .actionFailed ("`" ++ command ++ "` exited with status " ++ Text.intText exit) (Text.trim stderr)

def category : Error → Category
  | .preconditionNotMet _ => .preconditionNotMet
  | .guardEvaluation _ => .guardEvaluation
  | .propagationConflict .. => .propagationConflict
  | .duplicateResource _ | .invalidResource .. => .invalidRunList
  | .actionFailed .. | .pattern _ | .notText _ | .collaborator _ => .actionFailed

def message : Error → String
  | .preconditionNotMet m => "precondition not met: " ++ m
  | .guardEvaluation m => "guard evaluation failed: " ++ m
  | .actionFailed m _ => "action failed: " ++ m
  | .propagationConflict target key existing requested =>
    "conflicting value for " ++ key ++ " in " ++ target ++ ": found " ++ Text.quote existing ++
      ", requested " ++ Text.quote requested
  | .duplicateResource id => "duplicate resource " ++ id
  | .invalidResource id m => "invalid resource " ++ id ++ ": " ++ m
  | .pattern m => "invalid pattern: " ++ m
  | .notText path => path ++ " is not valid UTF-8"
  | .collaborator fault => fault.message

end Error

end Provision
