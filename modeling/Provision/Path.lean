import Provision.Text.Split

namespace Provision.Path

open Text

def join (base rel : String) : String :=
  if startsWith "/" rel then rel
  else if base = "" ∨ endsWith "/" base then base ++ rel
  else base ++ "/" ++ rel

def isAbsolute (path : String) : Bool := startsWith "/" path

/-- Whether the path starts at the root, and its components; `.` counts only at the start of a
relative path. -/
def components (path : String) : Bool × List String :=
  let parts := splitAll "/" path
  let named := parts.filter fun p => p ≠ "" ∧ p ≠ "."
  if isAbsolute path then (true, named)
  else if parts.head? == some "." then (false, "." :: named)
  else (false, named)

def same (a b : String) : Bool := components a == components b

def dropEmptyTail (absolute : Bool) (parts : List String) : List String :=
  let kept := (parts.reverse.dropWhile fun p => p = "" || p = ".").reverse
  if kept.isEmpty && !absolute && parts.head? == some "." then ["."] else kept

/-- The path of the directory that holds what a path names; empty for a lone name, and none for
the root and the empty path. -/
def parent? (path : String) : Option String :=
  let absolute := isAbsolute path
  match dropEmptyTail absolute (splitAll "/" path) with
  | [] => none
  | parts =>
    let up := dropEmptyTail absolute parts.dropLast
    some (if absolute && up.isEmpty then "/" else joinWith "/" up)

end Provision.Path
