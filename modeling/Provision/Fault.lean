import Provision.Text.Split

namespace Provision

inductive Party where
  | json
  | toml
  | template
  | io
  | walk
  | nul
deriving DecidableEq, Repr

inductive Fault.Root where
  | text (message : String)
  | of (party : Party) (message : String)
deriving DecidableEq, Repr

structure Fault where
  contexts : List String
  root : Fault.Root
deriving DecidableEq, Repr

namespace Fault

def ofText (message : String) : Fault := ⟨[], .text message⟩

def ofParty (party : Party) (message : String) : Fault := ⟨[], .of party message⟩

/-- A chain of messages, the outermost first. -/
def ofChain : List String → Fault
  | [] => ofText ""
  | [m] => ofText m
  | m :: rest => ⟨(m :: rest).dropLast, .text ((m :: rest).getLastD "")⟩

def within (context : String) (fault : Fault) : Fault := { fault with contexts := context :: fault.contexts }

def Root.message : Root → String
  | .text m | .of _ m => m

/-- The label of the party stands in for its message. -/
def Root.labelled (label : Party → String) : Root → String
  | .text m => m
  | .of party _ => label party

def message (fault : Fault) : String :=
  Text.joinWith ": " (fault.contexts ++ [fault.root.message])

/-- All messages, with a label in place of what another party worded. -/
def labelled (label : Party → String) (fault : Fault) : String :=
  Text.joinWith ": " (fault.contexts ++ [fault.root.labelled label])

end Fault

end Provision
