import Provision.Local.System

namespace Provision.WorkingCopies

def isThere (destination : String) : Operation Bool := do
  let s ← getThe LocalSystem
  return s.tree.exists? s.base true (Path.join destination ".git")

def revision (destination : String) : Operation (Option String) := do
  if ← isThere destination then
    return some (← Operation.capture "git" ["-C", destination, "rev-parse", "HEAD"])
  else return none

/-- The text of a key file: the key without the blanks at its end, and a line feed. -/
def keyText (key : String) : String := Text.trimEnd key ++ "\n"

def remoteCommand (keyPath : String) : String :=
  "ssh -i " ++ keyPath ++ " -o IdentitiesOnly=yes -o StrictHostKeyChecking=accept-new"

def remoteVariable : String := "GIT_SSH_COMMAND"

def invocation (request : CheckoutRequest) (args : List String) : Operation Invocation := do
  let s ← getThe LocalSystem
  let key := request.deployKey.map keyText
  let remote := request.deployKey.map fun _ => remoteCommand s.keyPath
  return match ← Operation.otherUser? request.user with
  | none =>
    { program := "git", args, key, env := remote.toList.map (remoteVariable, ·) }
  | some other =>
    let vars := remote.toList.map fun c => remoteVariable ++ "=" ++ c
    { program := "sudo", args := Operation.asUser other vars ++ "git" :: args, key }

def run (request : CheckoutRequest) (args : List String) : Operation String := do
  Operation.startChecked (← invocation request args)

def runInside (request : CheckoutRequest) (args : List String) : Operation String :=
  run request ("-C" :: request.destination :: args)

def checkKeyOwner (request : CheckoutRequest) : Operation Unit := do
  match request.deployKey, request.user with
  | some _, some user =>
    if user.toList.contains '\x00' then
      throw ((Fault.ofParty .nul "nul byte found in provided data").within "Invalid user name")
  | _, _ => return ()

def checkout (request : CheckoutRequest) : Operation String := do
  checkKeyOwner request
  if !(← isThere request.destination) then
    let _ ← run request ["clone", "--no-checkout", request.url, request.destination]
  let fetched ← Operation.outcome (runInside request ["fetch", "--quiet", "origin", request.revision])
  let target ← match fetched with
    | .ok _ => pure "FETCH_HEAD"
    | .error _ => do
      let _ ← runInside request ["fetch", "--quiet", "--tags", "origin"]
      pure request.revision
  let _ ← runInside request ["checkout", "--quiet", "--force", "--detach", target]
  runInside request ["rev-parse", "HEAD"]

end Provision.WorkingCopies
