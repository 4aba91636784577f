import Provision.Report.Diff
import Provision.RunList

namespace Provision

structure RunOptions where
  dryRun : Bool := false
  verbose : Bool := false
  nameScope : NameScope := .perKind
  onGuardError : GuardErrorPolicy := .skip
  onConflict : ConflictPolicy := .warn
deriving Inhabited

namespace Converge

variable {σ : Type}

/-- Takes a resource through its guards to its outcome. -/
def resourceOutcome (host : Host σ) (opts : RunOptions) (r : Resource) : StateM (World σ) Outcome := do
  match ← (Guard.evaluateAll host (r.onGuardError.getD opts.onGuardError) r.allGuards).run with
  | .error e => return .ofError e
  | .ok verdict =>
    emit (.phase r.id .guardChecked)
    match verdict with
    | .block reason => return .skipped reason
    | .permit =>
      if (← getContext).dryRun then
        match ← (r.spec.check host r.name).run with
        | .ok .inSync => return .unchanged
        | .ok (.drifted change) => return .skipped (dryRunLead ++ change)
        | .error e => return .ofError e
      else
        emit (.phase r.id .applying)
        match ← (r.spec.apply host r.name).run with
        | .ok change => return .ofChange change
        | .error e => return .ofError e

def oneResource (host : Host σ) (opts : RunOptions) (r : Resource) :
    StateM (World σ) ResourceReport := do
  emit (.start r.id r.describe)
  modifyContext fun x => { x with warnings := [] }
  let outcome ← resourceOutcome host opts r
  emit (.complete r.id outcome)
  let warnings := (← getContext).warnings
  modifyContext fun x => { x with warnings := [] }
  return ⟨r.kind.tag, r.name, r.bestEffort, outcome, warnings⟩

/-- The resources in order, up to one that ends the run. -/
def eachResource (host : Host σ) (opts : RunOptions) :
    List Resource → StateM (World σ) (List ResourceReport)
  | [] => return []
  | r :: rest => do
    let report ← oneResource host opts r
    if report.aborts then return [report]
    return report :: (← eachResource host opts rest)

/-- The commands that changed resources ask for, each once, at its first occurrence. -/
def due (resources : List Resource) (reports : List ResourceReport) : List String :=
  ((resources.zip reports).flatMap fun (r, report) =>
    if report.outcome.isChange then r.notifies else []).foldl
    (fun acc c => if acc.contains c then acc else acc ++ [c]) []

def notify (host : Host σ) (command : String) : StateM (World σ) NotificationReport := do
  match ← runCommand host command none none [] with
  | .error fault => return ⟨command, false, (Error.collaborator fault).message⟩
  | .ok output =>
    if output.succeeded then return ⟨command, true, ""⟩
    return ⟨command, false, (Error.commandFailed command output.exit output.stderr).message⟩

def notifyAll (host : Host σ) : List String → StateM (World σ) (List NotificationReport)
  | [] => return []
  | c :: rest => do
    let report ← notify host c
    if report.success then return report :: (← notifyAll host rest)
    return [report]

/-- The context takes over the options of the run. -/
def enter (opts : RunOptions) (x : Context) : Context :=
  { x with dryRun := opts.dryRun, verbose := opts.verbose, onConflict := opts.onConflict }

def runValid (host : Host σ) (opts : RunOptions) (l : RunList) : StateM (World σ) RunReport := do
  modifyContext (enter opts)
  emit (.runStart l.size)
  let reports ← eachResource host opts l.resources
  let aborted := reports.any ResourceReport.aborts
  let notifications ←
    if aborted || opts.dryRun then pure [] else notifyAll host (due l.resources reports)
  let state := if aborted || notifications.any (!·.success) then .aborted else .completed
  emit (.runComplete state)
  return ⟨state, opts.dryRun, reports, notifications⟩

end Converge

/-- Brings the system to a run list. A list that is not valid is refused before anything is
done. -/
def converge {σ : Type} (host : Host σ) (l : RunList) (opts : RunOptions) : Action σ RunReport := do
  match l.validate opts.nameScope with
  | .error e => throw e
  | .ok () => Converge.runValid host opts l

end Provision
