import Provision.Error

namespace Provision

inductive LoadError where
  | refused (contexts : List String) (error : Error)
  | fault (fault : Fault)
deriving DecidableEq, Repr

namespace LoadError

def ofError (e : Error) : LoadError := .refused [] e

def ofText (message : String) : LoadError := .fault (.ofText message)

def ofParty (party : Party) (message : String) : LoadError := .fault (.ofParty party message)

def within (context : String) : LoadError → LoadError
  | .refused contexts e => .refused (context :: contexts) e
  | .fault f => .fault (f.within context)

def error? : LoadError → Option Error
  | .refused _ e => some e
  | .fault _ => none

def message : LoadError → String
  | .refused contexts e => Text.joinWith ": " (contexts ++ [e.message])
  | .fault f => f.message

/-- All messages, with a label in place of what another party worded. -/
def labelled (label : Party → String) : LoadError → String
  | .refused contexts e => Text.joinWith ": " (contexts ++ [e.message])
  | .fault f => f.labelled label

end LoadError

end Provision
