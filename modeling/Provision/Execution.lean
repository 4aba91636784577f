import Provision.Converge
import Provision.Display.Run

namespace Provision

structure ExecutionOptions where
  dryRun : Bool := false
  yes : Bool := false
  verbose : Bool := false
  silent : Bool := false
  nameScope : NameScope := .perKind
  onGuardError : GuardErrorPolicy := .skip
  onConflict : ConflictPolicy := .warn
deriving Inhabited

/-- How it ended: after the dry run, at the question, or after the real run. -/
inductive Execution where
  | previewed (report : RunReport)
  | declined (report : RunReport)
  | applied (report : RunReport)

namespace Execution

def report : Execution → RunReport
  | .previewed r | .declined r | .applied r => r

def exitCode : Execution → Int
  | .declined _ => 1
  | .previewed r | .applied r => r.exitCode

end Execution

/-- Why a run with consent ended early: the list was refused, or nobody could be asked. -/
inductive ExecutionError where
  | refused (error : Error)
  | prompt (fault : Fault)

abbrev Consent := Except Fault Bool

def ExecutionOptions.run (opts : ExecutionOptions) (dryRun : Bool) : RunOptions :=
  ⟨dryRun, opts.verbose, opts.nameScope, opts.onGuardError, opts.onConflict⟩

namespace Execution

open Display (Output)

variable {σ : Type}

def whenShown (opts : ExecutionOptions) (out : Output) : Output := if opts.silent then .none else out

def previewOutput (opts : ExecutionOptions) (preview : RunReport) : Output :=
  whenShown opts (Display.pending preview.pendingChanges preview.diffSummary ++
    Display.failures preview)

/-- What is decided from the dry run alone. -/
inductive Next where
  | stop (shown : Output)
  | ask (shown : Output)

def next (opts : ExecutionOptions) (preview : RunReport) : Next :=
  if opts.dryRun then .stop (whenShown opts (.lines ["", "  ℹ Dry run - no changes made"]))
  else if preview.state = .aborted then
    .ask (whenShown opts
      (Display.warn "The dry run stopped early; the real run may fail at the same resource"))
  else if preview.diffSummary.hasChanges then .ask .none
  else .stop .none

def proceed (host : Host σ) (l : RunList) (opts : ExecutionOptions) (shown : Output) :
    StateM (World σ) (Except ExecutionError Execution × Output) := do
  let shown := shown ++
    whenShown opts (.lines ["", "  → Converging " ++ Text.natText l.size ++ " resources..."])
  match ← (converge host l (opts.run false)).run with
  | .error e => return (.error (.refused e), shown)
  | .ok report =>
    return (.ok (.applied report),
      shown ++ whenShown opts (Display.failures report ++ Display.summary report))

/-- The dry run, the question and the real run; with what was shown. -/
def execute (host : Host σ) (consent : Consent) (l : RunList) (opts : ExecutionOptions) :
    StateM (World σ) (Except ExecutionError Execution × Output) := do
  match ← (converge host l (opts.run true)).run with
  | .error e => return (.error (.refused e), .none)
  | .ok preview =>
    let shown := previewOutput opts preview
    match next opts preview with
    | .stop more => return (.ok (.previewed preview), shown ++ more)
    | .ask more =>
      let shown := shown ++ more
      if opts.yes then proceed host l opts shown
      else
        match consent with
        | .error fault => return (.error (.prompt fault), shown)
        | .ok true => proceed host l opts shown
        | .ok false => return (.ok (.declined preview), shown ++ .lines ["", "  ✗ Aborted"])

end Execution

end Provision
