import Provision.Files.Access
import Provision.Host.Call

namespace Provision

structure Invocation where
  program : String
  args : List String := []
  env : SortedMap String := []
  cwd : Option String := none
  stdin : String := ""
  key : Option String := none
deriving DecidableEq, Repr, Inhabited

def Invocation.describe (i : Invocation) : String := Text.joinWith " " (i.program :: i.args)

/-- What a started program leaves; none for one that cannot be started. -/
abbrev Programs := Nat → Invocation → FileTree → Option (CommandOutput × FileTree)

structure LocalSystem where
  tree : FileTree
  base : Place
  user : String
  users : List String
  groups : List String
  programs : Programs
  shell : String := "/bin/sh"
  templates : String := ""
  keyPath : String := "/tmp/deploy-key"
  started : List Invocation := []
  listsRefreshed : Bool := false

/-- An operation of the system that may fail; what it did before it failed stays done. -/
abbrev Operation (α : Type) := ExceptT Fault (StateM LocalSystem) α

namespace Operation

def fail {α : Type} (message : String) : Operation α := throw (.ofText message)

def outcome {α : Type} (op : Operation α) : Operation (Except Fault α) := ExceptT.mk fun s =>
  let (r, s) := op.run s
  (.ok r, s)

def ofFiles {α : Type} (act : Place → FileAction α) : Operation α := ExceptT.mk fun s =>
  let (r, tree) := (act s.base).run s.tree
  (r, { s with tree })

def obstacle? (i : Invocation) (s : LocalSystem) : Option Fault :=
  if (i.program :: i.args ++ i.env.flatMap fun (k, v) => [k, v]).any (·.toList.contains '\x00') then
    some (.ofParty .io "nul byte found in provided data")
  else
    match i.cwd.map (s.tree.entry s.base true) with
    | none | some (.ok .directory) => none
    | some (.ok _) => some FileError.notDirectory.fault
    | some (.error e) => some e.fault

/-- Starts a program and waits for it. That it ends with another status than zero is no fault. -/
def start (i : Invocation) : Operation CommandOutput := do
  let s ← getThe LocalSystem
  let context := "Failed to execute: " ++ i.describe
  match obstacle? i s with
  | some fault => throw (fault.within context)
  | none =>
    match s.programs s.started.length i s.tree with
    | none => throw (FileError.notFound.fault.within context)
    | some (output, tree) =>
      set { s with tree, started := s.started ++ [i] }
      return output

def startChecked (i : Invocation) : Operation String := do
  let output ← start i
  if output.succeeded then return Text.trim output.stdout
  else fail (i.describe ++ " failed: " ++ Text.trim output.stderr)

def capture (program : String) (args : List String) : Operation String := do
  let output ← start { program, args }
  if output.succeeded then return Text.trim output.stdout
  else fail ("Command failed: " ++ program ++ " " ++ Text.joinWith " " args ++ ": " ++
    Text.trim output.stderr)

def commandExists (name : String) : Operation Bool := do
  match ← outcome (start { program := "which", args := [name] }) with
  | .ok output => return output.succeeded
  | .error _ => return false

def asUser (user : String) (vars : List String) : List String :=
  ["-n", "-H", "-u", user, "env"] ++ vars

def otherUser? (user : Option String) : Operation (Option String) := do
  let s ← getThe LocalSystem
  return user.filter (· ≠ s.user)

def shell (command : String) (user cwd : Option String) (env : SortedMap String) : Operation CommandOutput := do
  let s ← getThe LocalSystem
  match ← otherUser? user with
  | none => start { program := s.shell, args := ["-c", command], env, cwd }
  | some other =>
    let vars := env.map fun (k, v) => k ++ "=" ++ v
    start { program := "sudo", args := asUser other vars ++ [s.shell, "-c", command], cwd }

end Operation

end Provision
