import Provision.Local.System

namespace Provision.Packages

def installedVersion? (line : String) : Option String := do
  let (status, version) ← Text.splitFirst? "\t" (Text.trim line)
  if (Text.words status).getLast? == some "installed" && version ≠ "" then some version else none

def statusFormat : String := "-f=$\x7bStatus\x7d\\t$\x7bVersion\x7d"

/-- The version that is installed; a package that is not known is not installed. -/
def version (name : String) : Operation (Option String) := do
  let output ← Operation.start { program := "dpkg-query", args := ["-W", statusFormat, name] }
  return if output.succeeded then installedVersion? output.stdout else none

def change (args : List String) : Operation Unit := do
  let _ ← Operation.startChecked
    { program := "apt-get", args, env := [("DEBIAN_FRONTEND", "noninteractive")] }

def refreshOnce : Operation Unit := do
  let s ← getThe LocalSystem
  if !s.listsRefreshed then
    change ["update", "-q"]
    modifyThe LocalSystem fun s => { s with listsRefreshed := true }

def install (name : String) (version : Option String) : Operation Unit := do
  if !(← Operation.commandExists "apt-get") then
    Operation.fail "apt-get not found; packages can only be installed on Debian-based systems"
  refreshOnce
  let target := match version with
    | some v => name ++ "=" ++ v
    | none => name
  change ["install", "-y", "-q", "--no-install-recommends", target]

end Provision.Packages
