import Provision.Files.Tree
import Provision.Host.Call

namespace Provision.CommandLine

def namesIn (command : String) : List String :=
  let separators := " \t\r\n;|&<>()=\"\x27".toList
  (command.toList.splitBy fun a b => separators.contains a == separators.contains b).filterMap
    fun piece => if piece.any separators.contains then none else some (String.ofList piece)

def pathsOf (templates : String) : Call → List String
  | .run command _ cwd _ =>
    let names := namesIn command
    match cwd with
    | none => names
    | some dir => dir :: names ++ names.map (Path.join dir)
  | .read path | .write path _ | .pathExists path | .owner path | .chown path .. | .readLink path
  | .remove path | .revision path => [path]
  | .symlink source link => [source, link]
  | .checkout request => [request.destination]
  | .render template _ => [Path.join templates template]
  | .jobs _ | .installJob _ | .installedVersion _ | .install .. => []

def diskPath (place : Place) : String := "/" ++ FileTree.key place

def probe (place : Place) : IO (Option FileEntry) := do
  let path := diskPath place
  try
    let real := (← IO.FS.realPath path).toString
    if real ≠ path then return some (.link real)
    return some (.file (← IO.FS.readBinFile path).toList FileTree.newMode)
  catch
    | .inappropriateType .. => return some .directory
    | _ => return none

def loadSteps (links : Nat) (place : Place) (steps : List String) (tree : FileTree) : IO FileTree :=
  match steps with
  | [] => return tree
  | s :: rest =>
    if s = "." then loadSteps links place rest tree
    else if s = ".." then loadSteps links place.dropLast rest tree
    else do
      let next := place ++ [s]
      let tree ← match tree.at? next with
        | some _ => pure tree
        | none => return ((← probe next).map (tree.put next)).getD tree
      match tree.at? next with
      | some .directory => loadSteps links next rest tree
      | some (.link target) =>
        match links with
        | 0 => return tree
        | links + 1 => loadSteps links [] (FileTree.steps target ++ rest) tree
      | _ => return tree
termination_by (links, steps.length)

def loadPath (base : Place) (tree : FileTree) (path : String) : IO FileTree :=
  if path = "" || path.toList.contains '\x00' then return tree
  else
    loadSteps FileTree.maxLinks (if Path.isAbsolute path then [] else base) (FileTree.steps path) tree

/-- Writes one entry to the disk; the second entry is the one that is there. -/
def saveEntry (path : String) (entry : FileEntry) (before : Option FileEntry) : IO Unit := do
  match entry with
  | .directory => IO.FS.createDirAll path
  | .file content _ =>
    if let some (.link _) := before then IO.FS.removeFile path
    IO.FS.writeBinFile path ⟨content.toArray⟩
  | .link target => throw (IO.userError ("Cannot make the link " ++ path ++ " -> " ++ target))

/-- Makes the disk agree with what became of the tree. Directories come before what they hold. -/
def save (before after : FileTree) : IO Unit := do
  for (key, _) in before.entries do
    if (after.entries.get? key).isNone then IO.FS.removeFile ("/" ++ key)
  for (key, entry) in after.entries do
    let there := before.entries.get? key
    if there ≠ some entry then saveEntry ("/" ++ key) entry there

end Provision.CommandLine
