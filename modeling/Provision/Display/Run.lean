import Provision.Display.Text

namespace Provision.Display

open Text

def kindTitle : String → String
  | "package" => "Packages"
  | "execute" => "Commands"
  | "line_edit" => "Environment and line edits"
  | "template" => "Templates"
  | "git" => "Source checkouts"
  | "cron" => "Scheduled jobs"
  | "web_app" => "Sites"
  | "ownership" => "Ownership"
  | other => other

def changeLine (c : PendingChange) : String :=
  "│   ~ " ++ padRight 40 (truncate c.resourceId 40) ++ " " ++ c.change

def pending (changes : List PendingChange) (summary : DiffSummary) : Output :=
  if changes.isEmpty then .lines ["", "  ✓ No changes needed"]
  else
    .lines (["", "┌─ Configuration Diff ─────────────────────────────────────────┐", "│"] ++
      ((groupByKind changes).flatMap fun (kind, group) =>
        ("│ " ++ kindTitle kind) :: group.map changeLine ++ ["│"]) ++
      ["├─────────────────────────────────────────────────────┤",
        "│ Summary: " ++ natText summary.changes ++ " changes (" ++ natText summary.inSync ++
          " in sync, " ++ natText summary.blocked ++ " blocked by guards)",
        "└─────────────────────────────────────────────────────┘"])

def failures (r : RunReport) : Output :=
  let failed := r.resources.filter (!·.outcome.isSuccess)
  let warned := r.resources.filter (!·.warnings.isEmpty)
  if failed.isEmpty && warned.isEmpty then .none
  else
    .lines [""] ++
      .concat (warned.flatMap fun x => x.warnings.map fun w => warn (x.id ++ ": " ++ w)) ++
      .concat (failed.map fun x =>
        error (x.id ++ (if x.bestEffort then " (best effort)" else "") ++ ": " ++ detail x.outcome))

def verdictLine (r : RunReport) : String :=
  if r.state = .completed then
    if r.summary.isSuccess then "  ✓ Converged successfully!"
    else "  ⚠ Converged with best-effort failures"
  else
    match r.abortCause? with
    | some cause => "  ✗ Aborted at " ++ cause.id ++ ": " ++ cause.cause
    | none => "  ✗ Aborted"

def countLine (n : Nat) (rest : String) : List String :=
  if n = 0 then [] else ["    • " ++ natText n ++ rest]

def summary (r : RunReport) : Output :=
  let s := r.summary
  .lines (["", verdictLine r] ++ countLine s.converged " resources converged" ++
    countLine s.unchanged " resources already up to date" ++
    countLine s.skipped " resources skipped" ++ countLine s.failed " resources failed" ++
    r.notifications.map fun n =>
      "    " ++ (if n.success then "✓" else "✗") ++ " notified `" ++ n.command ++ "`")

end Provision.Display
