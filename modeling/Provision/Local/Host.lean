import Provision.Local.Jobs
import Provision.Local.Packages
import Provision.Local.WorkingCopies
import Provision.Template.Folder

namespace Provision.LocalSystem

def owner (path : String) : Operation (Option String) := do
  let s ← getThe LocalSystem
  let status ← Operation.ofFiles fun base => FileAction.status base path
  return status.map fun _ => s.user

def checkName (what name : String) : Operation Unit :=
  if name.toList.contains '\x00' then
    throw ((Fault.ofParty .nul "nul byte found in provided data").within ("Invalid " ++ what ++ " name"))
  else return ()

/-- Gives a path to a user. Only what belongs to whoever runs the program can be given, and to
nobody else. -/
def chown (path owner : String) (group : Option String) : Operation Unit := do
  let s ← getThe LocalSystem
  checkName "user" owner
  if !s.users.contains owner then Operation.fail ("unknown user " ++ owner)
  match group with
  | none => pure ()
  | some group => do
    checkName "group" group
    if !s.groups.contains group then Operation.fail ("unknown group " ++ group)
  match s.tree.entry s.base true path with
  | .error e => throw ((Fault.ofParty .walk ("IO error for operation on " ++ path ++ ": " ++ e.message)).within
      ("Failed to walk " ++ path))
  | .ok _ =>
    if owner ≠ s.user then throw (FileError.notPermitted.fault.within ("Failed to chown " ++ path))

def render (template : String) (context : Json) : Operation String := do
  let s ← getThe LocalSystem
  let path := Path.join s.templates template
  match s.tree.readText s.base path with
  | .error e => throw (e.fault.within ("Failed to read template " ++ path))
  | .ok source => ExceptT.mk (pure (Template.renderFile template source context))

def perform {α : Type} (op : Operation α) (s : LocalSystem) : Except Fault α × LocalSystem := op.run s

def answer : (c : Call) → LocalSystem → c.Reply × LocalSystem
  | .run command user cwd env => perform (Operation.shell command user cwd env)
  | .read path => perform (Operation.ofFiles fun base => FileAction.read base path)
  | .write path contents => perform (Operation.ofFiles fun base => FileAction.write base path contents)
  | .pathExists path => fun s => (s.tree.exists? s.base false path, s)
  | .owner path => perform (owner path)
  | .chown path name group _ => perform (chown path name group)
  | .readLink path => perform (Operation.ofFiles fun base => FileAction.readLink base path)
  | .symlink source link => perform (Operation.ofFiles fun base => FileAction.symlink base source link)
  | .remove path => perform (Operation.ofFiles fun base => FileAction.remove base path)
  | .revision destination => perform (WorkingCopies.revision destination)
  | .checkout request => perform (WorkingCopies.checkout request)
  | .render template context => perform (render template context)
  | .jobs user => perform (Jobs.list user)
  | .installJob job => perform (Jobs.install job)
  | .installedVersion package => perform (Packages.version package)
  | .install package version => perform (Packages.install package version)

def host : Host LocalSystem := ⟨answer⟩

end Provision.LocalSystem
