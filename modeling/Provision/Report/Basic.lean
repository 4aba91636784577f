import Provision.Report.Outcome

namespace Provision

inductive RunState where
  | initializing
  | running
  | completed
  | aborted
deriving DecidableEq, Repr

namespace RunState

def name : RunState → String
  | .initializing => "initializing"
  | .running => "running"
  | .completed => "completed"
  | .aborted => "aborted"

def all : List RunState := [.initializing, .running, .completed, .aborted]

def ofName? (s : String) : Option RunState := all.find? (·.name == s)

end RunState

structure ResourceReport where
  kind : String
  name : String
  bestEffort : Bool
  outcome : Outcome
  warnings : List String
deriving DecidableEq, Repr

structure NotificationReport where
  command : String
  success : Bool
  detail : String
deriving DecidableEq, Repr

structure RunReport where
  state : RunState
  dryRun : Bool
  resources : List ResourceReport
  notifications : List NotificationReport
deriving DecidableEq, Repr

structure Summary where
  converged : Nat
  unchanged : Nat
  skipped : Nat
  failed : Nat
deriving DecidableEq, Repr

inductive AbortCause where
  | resource (report : ResourceReport)
  | notification (report : NotificationReport)
deriving DecidableEq, Repr

def ResourceReport.id (r : ResourceReport) : String := r.kind ++ "[" ++ r.name ++ "]"

/-- Whether the resource ends the run: it failed, and that is not put up with. -/
def ResourceReport.aborts (r : ResourceReport) : Bool := !r.outcome.isSuccess && !r.bestEffort

namespace AbortCause

def id : AbortCause → String
  | .resource r => r.id
  | .notification n => "notify[" ++ n.command ++ "]"

def cause : AbortCause → String
  | .resource r => match r.outcome with
    | .failed cause _ => cause
    | _ => ""
  | .notification n => n.detail

end AbortCause

namespace Summary

def total (s : Summary) : Nat := s.converged + s.unchanged + s.skipped + s.failed

def totalChanges (s : Summary) : Nat := s.converged

def isSuccess (s : Summary) : Bool := s.failed == 0

end Summary

namespace RunReport

/-- The first failure that aborted the run. -/
def abortCause? (r : RunReport) : Option AbortCause :=
  if r.state = .aborted then
    match r.resources.find? ResourceReport.aborts with
    | some report => some (.resource report)
    | none => (r.notifications.find? (!·.success)).map .notification
  else none

def exitCode (r : RunReport) : Int := if r.state = .completed then 0 else 1

def countPhase (r : RunReport) (p : Phase) : Nat := r.resources.countP (·.outcome.phase == p)

def summary (r : RunReport) : Summary :=
  ⟨r.countPhase .converged, r.countPhase .unchanged, r.countPhase .skipped, r.countPhase .failed⟩

/-- The outcome of the first resource with the kind and name. -/
def outcomeOf? (r : RunReport) (kind name : String) : Option Outcome :=
  (r.resources.find? fun x => x.kind == kind && x.name == name).map (·.outcome)

end RunReport

end Provision
