import Provision.Report.Diff

namespace Provision.Display

open Text

structure Output where
  stdout : String
  stderr : String
deriving DecidableEq, Repr, Inhabited

namespace Output

def none : Output := ⟨"", ""⟩

def append (a b : Output) : Output := ⟨a.stdout ++ b.stdout, a.stderr ++ b.stderr⟩

instance : Append Output := ⟨append⟩

def lines (ls : List String) : Output := ⟨String.join (ls.map (· ++ "\n")), ""⟩

def concat (outs : List Output) : Output := outs.foldl append none

end Output

def warn (message : String) : Output := .lines ["⚠ " ++ message]

def error (message : String) : Output := ⟨"", "✗ " ++ message ++ "\n"⟩

def success (message : String) : Output := .lines ["✓ " ++ message]

def header (title : String) : Output :=
  .lines ["", title, String.ofList (List.replicate title.length '─')]

def symbol : Outcome → String
  | .unchanged => "○"
  | .converged _ => "✓"
  | .skipped _ => "⊘"
  | .failed .. => "✗"

def detail : Outcome → String
  | .unchanged => "up to date"
  | .converged d => d
  | .skipped reason => reason
  | .failed cause category => category.description ++ ": " ++ cause

def truncate (path : String) (limit : Nat) : String :=
  let n := path.length
  if n ≤ limit then path
  else if limit ≤ 3 then "..."
  else "..." ++ String.ofList (path.toList.drop (n - limit + 3))

def padRight (width : Nat) (s : String) : String :=
  s ++ String.ofList (List.replicate (width - s.length) ' ')

end Provision.Display
