import Provision.Report.Basic
import Provision.SortedMap
import Provision.Text.Split

namespace Provision

def dryRunLead : String := "dry run: "

structure PendingChange where
  resourceId : String
  kind : String
  change : String
deriving DecidableEq, Repr

/-- The change that a report stands for, if it is drift. -/
def PendingChange.ofReport? (r : ResourceReport) : Option PendingChange :=
  match r.outcome with
  | .skipped reason => (Text.stripLead? dryRunLead reason).map fun change => ⟨r.id, r.kind, change⟩
  | _ => none

structure DiffSummary where
  changes : Nat
  blocked : Nat
  inSync : Nat
  failed : Nat
deriving DecidableEq, Repr

namespace DiffSummary

def hasChanges (s : DiffSummary) : Bool := 0 < s.changes

def none : DiffSummary := ⟨0, 0, 0, 0⟩

def add (s : DiffSummary) (o : Outcome) : DiffSummary :=
  match o with
  | .skipped reason =>
    if Text.startsWith dryRunLead reason then { s with changes := s.changes + 1 }
    else { s with blocked := s.blocked + 1 }
  | .unchanged | .converged _ => { s with inSync := s.inSync + 1 }
  | .failed .. => { s with failed := s.failed + 1 }

end DiffSummary

namespace RunReport

/-- The pending changes, in run order. -/
def pendingChanges (r : RunReport) : List PendingChange := r.resources.filterMap PendingChange.ofReport?

def diffSummary (r : RunReport) : DiffSummary :=
  r.resources.foldl (fun s x => s.add x.outcome) .none

end RunReport

def groupByKind (changes : List PendingChange) : SortedMap (List PendingChange) :=
  changes.foldl (fun groups c => groups.insert c.kind ((groups.get? c.kind).getD [] ++ [c])) []

end Provision
