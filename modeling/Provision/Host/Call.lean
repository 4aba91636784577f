import Provision.Fault
import Provision.Job
import Provision.SortedMap

namespace Provision

/-- What a command left behind. A command that a signal ended has the status -1. -/
structure CommandOutput where
  exit : Int
  stdout : String
  stderr : String
deriving DecidableEq, Repr, Inhabited

def CommandOutput.succeeded (o : CommandOutput) : Bool := o.exit == 0

structure CheckoutRequest where
  url : String
  revision : String
  deployKey : Option String
  destination : String
  user : Option String

inductive Call where
  | run (command : String) (user cwd : Option String) (env : SortedMap String)
  | read (path : String)
  | write (path contents : String)
  | pathExists (path : String)
  | owner (path : String)
  | chown (path owner : String) (group : Option String) (recursive : Bool)
  | readLink (path : String)
  | symlink (source link : String)
  | remove (path : String)
  | revision (destination : String)
  | checkout (request : CheckoutRequest)
  | render (template : String) (context : Json)
  | jobs (user : String)
  | installJob (job : Job)
  | installedVersion (package : String)
  | install (package : String) (version : Option String)

namespace Call

/-- The answer to a call. What is absent is none; only whether a path exists cannot fail. -/
@[reducible] def Reply : Call → Type
  | .run .. => Except Fault CommandOutput
  | .read _ => Except Fault (Option String)
  | .write .. => Except Fault Unit
  | .pathExists _ => Bool
  | .owner _ => Except Fault (Option String)
  | .chown .. => Except Fault Unit
  | .readLink _ => Except Fault (Option String)
  | .symlink .. => Except Fault Unit
  | .remove _ => Except Fault Unit
  | .revision _ => Except Fault (Option String)
  | .checkout _ => Except Fault String
  | .render .. => Except Fault String
  | .jobs _ => Except Fault (List Job)
  | .installJob _ => Except Fault Unit
  | .installedVersion _ => Except Fault (Option String)
  | .install .. => Except Fault Unit

/-- Whether the call is meant to change the system. Commands are told apart by who runs them. -/
def mutates : Call → Bool
  | .write .. | .chown .. | .symlink .. | .remove _ | .checkout _ | .installJob _ | .install .. => true
  | _ => false

def isRun : Call → Bool
  | .run .. => true
  | _ => false

end Call

structure Host (σ : Type) where
  answer : (c : Call) → σ → c.Reply × σ

end Provision
