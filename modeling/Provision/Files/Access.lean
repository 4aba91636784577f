import Provision.Files.Tree

namespace Provision

/-- An operation on a tree that may fail; what it did before it failed stays done. -/
abbrev FileAction (α : Type) := ExceptT Fault (StateM FileTree) α

/-- Reads the error for something that is not there as none. -/
def FileError.optional {α : Type} : Except FileError α → Except FileError (Option α)
  | .ok v => .ok (some v)
  | .error .notFound => .ok none
  | .error e => .error e

def FileError.within {α : Type} (context : String) (r : Except FileError α) : Except Fault α :=
  r.mapError fun e => e.fault.within context

namespace FileAction

def ask {α : Type} (context : String) (question : FileTree → Except FileError α) : FileAction α := do
  let tree ← get
  ExceptT.mk (pure (FileError.within context (question tree)))

def change (context : String) (act : FileTree → Except FileError FileTree) : FileAction Unit := do
  set (← ask context act)

variable (base : Place)

def read (path : String) : FileAction (Option String) :=
  ask ("Failed to read " ++ path) fun tree => FileError.optional (tree.readText base path)

def ensureParent (path : String) : FileAction Unit :=
  let parent := ((Path.parent? path).filter (· ≠ "")).getD "."
  change ("Failed to create " ++ parent) fun tree =>
    tree.makeDirectories base (path.length + 1) parent

def write (path text : String) : FileAction Unit := do
  ensureParent base path
  let existing ← ask ("Failed to stat " ++ path) fun tree =>
    FileError.optional (tree.entry base true path)
  let mode := match existing with
    | some (.file _ mode) => mode
    | _ => FileTree.newMode
  change ("Failed to write " ++ path) fun tree => tree.replace base path (Text.encode text) mode

def pathExists (path : String) : FileAction Bool := do return (← get).exists? base false path

def status (path : String) : FileAction (Option FileEntry) :=
  ask ("Failed to stat " ++ path) fun tree => FileError.optional (tree.entry base false path)

def readLink (path : String) : FileAction (Option String) := do
  match ← status base path with
  | some (.link target) => return some target
  | _ => return none

def symlink (source path : String) : FileAction Unit := do
  ensureParent base path
  change ("Failed to link " ++ path ++ " -> " ++ source) fun tree => tree.makeLink base source path

def remove (path : String) : FileAction Unit := do
  let context := "Failed to remove " ++ path
  match ← ask context fun tree => FileError.optional (tree.remove base path) with
  | some tree => set tree
  | none => return ()

end FileAction

end Provision
