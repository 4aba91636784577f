import Std.Time.DateTime.PlainDateTime
import Std.Time.DateTime.Timestamp
import Provision.CommandLine.Disk
import Provision.CommandLine.Program

namespace Provision.CommandLine

def variableNames : List String :=
  ["HOME", "LANG", "LOGNAME", "PATH", "PWD", inventoryVariable, configVariable, "TMPDIR", "USER"]

def readVariables : IO (SortedMap String) := do
  let found ← variableNames.filterMapM fun name => do return (← IO.getEnv name).map (name, ·)
  return .ofList found

def twoDigits (n : Int) : String := (if n < 10 then "0" else "") ++ toString n

def readClock : IO String := do
  let now ← Std.Time.Timestamp.now
  let d := Std.Time.PlainDateTime.ofWallTime (.ofNanoseconds now.toNanosecondsSinceUnixEpoch)
  return toString d.year.toInt ++ "-" ++ twoDigits d.month.val ++ "-" ++ twoDigits d.day.val ++ "T" ++
    twoDigits d.hour.val ++ ":" ++ twoDigits d.minute.val ++ ":" ++ twoDigits d.second.val ++ "Z"

def filesNamed (setting : Setting) (args : List String) : List String :=
  let named := match Arguments.parse args setting.vars with
    | .ok ⟨_, _, .apply run _⟩ | .ok ⟨_, _, .diff run⟩ =>
      run.recipe :: (run.inventory.toList ++ run.config.toList)
    | .ok ⟨_, _, .inventory _ _ path⟩ => [path]
    | _ => []
  named ++ (setting.home.map Settings.userFile).toList ++ [Settings.systemFile]

def templatesOf (system : LocalSystem) (setting : Setting) (args : List String) : String :=
  match Arguments.parse args setting.vars with
  | .ok ⟨_, _, .apply run _⟩ | .ok ⟨_, _, .diff run⟩ =>
    match Plan.load system setting run with
    | .ok plan => (plan.world setting system).machine.templates
    | .error _ => ""
  | _ => ""

/-- Loads what a run looks at until a run finds all of it. -/
def settle (setting : Setting) (args : List String) : (rounds : Nat) → LocalSystem → IO LocalSystem
  | 0, system => return system
  | rounds + 1, system => do
    let (_, _, calls) := start system { setting with consent := .ok true } args
    let paths := calls.flatMap (pathsOf (templatesOf system setting args))
    let tree ← paths.foldlM (loadPath system.base) system.tree
    if tree.entries.length = system.tree.entries.length then return system
    else settle setting args rounds { system with tree }

def maxRounds : Nat := 1000

def ask : IO Bool := do
  (← IO.getStdout).putStr "Continue? [y/N] "
  (← IO.getStdout).flush
  let line ← (← IO.getStdin).getLine
  return (Text.trim line).toLower == "y" || (Text.trim line).toLower == "yes"

def present (shown : String) (ending : Ending) : IO Unit := do
  IO.print ((Text.stripLead? shown ending.output.stdout).getD ending.output.stdout)
  IO.eprint ending.output.stderr

def runOnDisk (args : List String) : IO Int := do
  let vars ← readVariables
  let base := FileTree.steps (← IO.currentDir).toString
  let user := (vars.get? "USER").getD "root"
  let setting : Setting :=
    { vars, home := vars.get? "HOME", startedAt := ← readClock, finishedAt := ← readClock
      consent := .error (.ofParty .io "IO error: not a terminal") }
  let empty : LocalSystem :=
    { tree := .empty, base, user, users := [user], groups := [], programs := programs vars user base }
  let tree ← (diskPath base :: filesNamed setting args).foldlM (loadPath base) empty.tree
  let system ← settle setting args maxRounds { empty with tree }
  let (unasked, last, _) := start system setting args
  let (declining, _, _) := start system { setting with consent := .ok false } args
  if unasked.output = declining.output || !(← (← IO.getStdin).isTty) then
    save system.tree last.tree
    present "" unasked
    return unasked.exit
  else
    let shown := unasked.output.stdout
    IO.print shown
    let (ending, last, _) := start system { setting with consent := .ok (← ask) } args
    save system.tree last.tree
    present shown ending
    return ending.exit

end Provision.CommandLine

def main (args : List String) : IO UInt32 := do
  try
    return UInt32.ofInt (← Provision.CommandLine.runOnDisk args)
  catch e =>
    IO.eprintln (toString e)
    return 2
