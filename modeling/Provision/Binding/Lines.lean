import Provision.Binding.Basic
import Provision.Text.Lines

namespace Provision

open Text

inductive LineSyntax where
  | exported
  | plain
deriving DecidableEq, Repr, Inhabited

namespace LineSyntax

def name : LineSyntax → String
  | .exported => "export"
  | .plain => "plain"

def ofName? : String → Option LineSyntax
  | "export" => some .exported
  | "plain" => some .plain
  | _ => none

def lead (syn : LineSyntax) (key : String) : List Char :=
  match syn with
  | .exported => "export ".toList ++ key.toList ++ ['=']
  | .plain => key.toList ++ ['=']

def lineFor (syn : LineSyntax) (b : Binding) : String :=
  String.ofList (syn.lead b.key ++ '"' :: b.value.toList ++ ['"'])

def sets (syn : LineSyntax) (key line : String) : Bool :=
  (dropLead? (syn.lead key) line.toList).isSome

/-- The text between two marks of the given kind. -/
def between? (mark : Char) : List Char → Option (List Char)
  | [] => none
  | c :: rest =>
    if c = mark then
      match rest.reverse with
      | d :: inner => if d = mark then some inner.reverse else none
      | [] => none
    else none

def unquote (raw : List Char) : List Char :=
  match between? '"' raw with
  | some inner => inner
  | none => (between? '\'' raw).getD raw

def valueOf? (syn : LineSyntax) (key line : String) : Option String :=
  (dropLead? (syn.lead key) line.toList).map fun rest =>
    String.ofList (unquote (trimEndChars rest))

end LineSyntax

namespace Binding

structure LinePass where
  known : List String
  added : List String
  account : Insertion

/-- Accounts for one binding; lines added earlier in the pass are seen. -/
def LinePass.step (syn : LineSyntax) (pass : LinePass) (b : Binding) : LinePass :=
  match pass.known.find? (syn.sets b.key) with
  | some line =>
    { pass with account := pass.account.addExisting b ((syn.valueOf? b.key line).getD "") }
  | none =>
    { known := pass.known ++ [syn.lineFor b]
      added := pass.added ++ [syn.lineFor b]
      account := pass.account.addInserted b.key }

/-- The text with the lines appended, on lines of their own. -/
def appendLines (content : String) (added : List String) : String :=
  let base := if content = "" ∨ endsWith "\n" content then content else content ++ "\n"
  base ++ String.join (added.map (· ++ "\n"))

/-- Appends a line for each binding whose key no line sets. -/
def insertLines (content : String) (bindings : List Binding) (syn : LineSyntax) :
    String × Insertion :=
  let pass := bindings.foldl (LinePass.step syn) ⟨lines content, [], .none⟩
  if pass.account.isChanged then (appendLines content pass.added, pass.account)
  else (content, pass.account)

end Binding

end Provision
