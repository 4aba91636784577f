import Provision.Fault
import Provision.Path
import Provision.SortedMap
import Provision.Text.Utf8

namespace Provision

inductive FileError where
  | notFound
  | notPermitted
  | alreadyThere
  | notDirectory
  | isDirectory
  | nameTooLong
  | tooManyLinks
  | nullCharacter
  | notText
deriving DecidableEq, Repr

namespace FileError

def message : FileError → String
  | .notFound => "No such file or directory (os error 2)"
  | .notPermitted => "Operation not permitted (os error 1)"
  | .alreadyThere => "File exists (os error 17)"
  | .notDirectory => "Not a directory (os error 20)"
  | .isDirectory => "Is a directory (os error 21)"
  | .nameTooLong => "File name too long (os error 36)"
  | .tooManyLinks => "Too many levels of symbolic links (os error 40)"
  | .nullCharacter => "file name contained an unexpected NUL byte"
  | .notText => "stream did not contain valid UTF-8"

def fault (e : FileError) : Fault := .ofParty .io e.message

end FileError

inductive FileEntry where
  | directory
  | file (content : Text.Bytes) (mode : Nat)
  | link (target : String)
deriving DecidableEq, Repr, Inhabited

abbrev Place := List String

/-- What there is, by the places joined with slashes. The root is always there. -/
structure FileTree where
  entries : SortedMap FileEntry
deriving Inhabited

namespace FileTree

def empty : FileTree := ⟨[]⟩

def key (place : Place) : String := Text.joinWith "/" place

def at? (tree : FileTree) (place : Place) : Option FileEntry :=
  if place.isEmpty then some .directory else tree.entries.get? (key place)

def put (tree : FileTree) (place : Place) (entry : FileEntry) : FileTree :=
  ⟨tree.entries.insert (key place) entry⟩

def erase (tree : FileTree) (place : Place) : FileTree := ⟨tree.entries.erase (key place)⟩

/-- The steps of a path; a slash at its end asks for a directory. -/
def steps (path : String) : List String :=
  (Text.splitAll "/" path).filter (· ≠ "") ++ if Text.endsWith "/" path then ["."] else []

def maxName : Nat := 255

def maxPath : Nat := 4095

def maxLinks : Nat := 40

/-- The place that steps lead to. The last step may lead to nothing; if it leads to a link, the
flag says whether that is followed. -/
def walk (tree : FileTree) (follow : Bool) (links : Nat) (place : Place) (steps : List String) :
    Except FileError Place :=
  match steps with
  | [] => .ok place
  | s :: rest =>
    if s = "." then walk tree follow links place rest
    else if s = ".." then walk tree follow links place.dropLast rest
    else if maxName < s.utf8ByteSize then .error .nameTooLong
    else
      let next := place ++ [s]
      match tree.at? next with
      | none => if rest.isEmpty then .ok next else .error .notFound
      | some .directory => walk tree follow links next rest
      | some (.file ..) => if rest.isEmpty then .ok next else .error .notDirectory
      | some (.link target) =>
        if rest.isEmpty && !follow then .ok next
        else
          match links with
          | 0 => .error .tooManyLinks
          | links + 1 =>
            if target = "" then .error .notFound
            else walk tree follow links (if Path.isAbsolute target then [] else place)
              (FileTree.steps target ++ rest)
termination_by (links, steps.length)

def locate (tree : FileTree) (base : Place) (follow : Bool) (path : String) : Except FileError Place :=
  if path.toList.contains '\x00' then .error .nullCharacter
  else if path = "" then .error .notFound
  else if maxPath < path.utf8ByteSize then .error .nameTooLong
  else walk tree follow maxLinks (if Path.isAbsolute path then [] else base) (steps path)

def entry (tree : FileTree) (base : Place) (follow : Bool) (path : String) : Except FileError FileEntry := do
  match tree.at? (← tree.locate base follow path) with
  | some e => .ok e
  | none => .error .notFound

def exists? (tree : FileTree) (base : Place) (follow : Bool) (path : String) : Bool :=
  (tree.entry base follow path).toBool

def isDirectory (tree : FileTree) (base : Place) (path : String) : Bool :=
  match tree.entry base true path with
  | .ok .directory => true
  | _ => false

def read (tree : FileTree) (base : Place) (path : String) : Except FileError Text.Bytes := do
  match ← tree.entry base true path with
  | .file content _ => .ok content
  | _ => .error .isDirectory

def readText (tree : FileTree) (base : Place) (path : String) : Except FileError String := do
  match Text.decode? (← tree.read base path) with
  | some text => .ok text
  | none => .error .notText

def makeDirectory (tree : FileTree) (base : Place) (path : String) : Except FileError FileTree := do
  let place ← tree.locate base false path
  match tree.at? place with
  | some _ => .error .alreadyThere
  | none => .ok (tree.put place .directory)

def makeDirectories (base : Place) : Nat → FileTree → String → Except FileError FileTree
  | 0, tree, _ => .ok tree
  | fuel + 1, tree, path =>
    if path = "" then .ok tree
    else
      match tree.makeDirectory base path with
      | .ok tree => .ok tree
      | .error e =>
        if e ≠ .notFound then (if tree.isDirectory base path then .ok tree else .error e)
        else
          match Path.parent? path with
          | none => .error e
          | some parent => do
            let tree ← makeDirectories base fuel tree parent
            match tree.makeDirectory base path with
            | .ok tree => .ok tree
            | .error e => if tree.isDirectory base path then .ok tree else .error e

def newMode : Nat := 0o644

def replace (tree : FileTree) (base : Place) (path : String) (content : Text.Bytes) (mode : Nat) :
    Except FileError FileTree := do
  let place ← tree.locate base false path
  match tree.at? place with
  | some .directory => .error .isDirectory
  | _ => .ok (tree.put place (.file content mode))

def store (tree : FileTree) (base : Place) (path : String) (change : Text.Bytes → Text.Bytes) :
    Except FileError FileTree := do
  let place ← tree.locate base true path
  match tree.at? place with
  | some (.file content mode) => .ok (tree.put place (.file (change content) mode))
  | none => .ok (tree.put place (.file (change []) newMode))
  | _ => .error .isDirectory

def makeLink (tree : FileTree) (base : Place) (target path : String) : Except FileError FileTree := do
  if target.toList.contains '\x00' then .error .nullCharacter
  else if target = "" then .error .notFound
  else
    let place ← tree.locate base false path
    match tree.at? place with
    | some _ => .error .alreadyThere
    | none => .ok (tree.put place (.link target))

def remove (tree : FileTree) (base : Place) (path : String) : Except FileError FileTree := do
  let place ← tree.locate base false path
  match tree.at? place with
  | some .directory => .error .isDirectory
  | some _ => .ok (tree.erase place)
  | none => .error .notFound

def below (tree : FileTree) (place : Place) : List (String × FileEntry) :=
  tree.entries.filterMap fun (k, e) =>
    (if place.isEmpty then some k else Text.stripLead? (key place ++ "/") k).map (·, e)

/-- The tree with an entry at the path from a place, and directories on the way. -/
def plant (tree : FileTree) (place : Place) (path : String) (entry : FileEntry) : FileTree :=
  let names := (Text.splitAll "/" path).filter fun s => s ≠ "" ∧ s ≠ "."
  let rec go : Place → List String → FileTree → FileTree
    | _, [], tree => tree
    | place, [name], tree => tree.put (place ++ [name]) entry
    | place, name :: rest, tree =>
      let place := place ++ [name]
      go place rest (if (tree.at? place).isSome then tree else tree.put place .directory)
  go place names tree

end FileTree

end Provision
