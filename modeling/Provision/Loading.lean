import Provision.Files.Tree
import Provision.Recipe.Basic

namespace Provision

def LoadError.ofFile {α : Type} (what : String) (r : Except FileError α) : Except LoadError α :=
  r.mapError fun e => .fault (e.fault.within ("Could not read " ++ what))

namespace Settings

def userFile (home : String) : String :=
  Path.join (Path.join (Path.join home ".config") "steward") "config.toml"

def systemFile : String := "/etc/steward/config.toml"

def loadFile (tree : FileTree) (base : Place) (path : String) : Except LoadError Settings := do
  let text ← LoadError.ofFile path (tree.readText base path)
  (parse text).mapError (·.within ("Invalid settings in " ++ path))

/-- The settings of the given file, else of the first of the usual files that is there. -/
def load (tree : FileTree) (base : Place) (home : Option String) :
    Option String → Except LoadError Settings
  | some path => loadFile tree base path
  | none =>
    match ((home.map userFile).toList ++ [systemFile]).find? (tree.exists? base true) with
    | some path => loadFile tree base path
    | none => .ok {}

end Settings

def Inventory.load (tree : FileTree) (base : Place) : Option String → Except LoadError Inventory
  | none => .ok .empty
  | some path => do
    let text ← LoadError.ofFile ("inventory " ++ path) (tree.readText base path)
    match Inventory.parse? text with
    | some inventory => .ok inventory
    | none => .error ((LoadError.ofParty .json "invalid inventory").within ("Invalid inventory " ++ path))

def Recipe.load (tree : FileTree) (base : Place) (path : String) (inventory : Inventory)
    (settings : Settings) : Except LoadError Recipe := do
  let text ← LoadError.ofFile ("recipe " ++ path) (tree.readText base path)
  (Recipe.parse text inventory settings).mapError (·.within ("Invalid recipe " ++ path))

end Provision
