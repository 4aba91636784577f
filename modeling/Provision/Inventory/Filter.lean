import Provision.Error
import Provision.Json.Source

namespace Provision

open Text

structure Record where
  attributes : Fields
deriving Inhabited

namespace Record

def get? (r : Record) (key : String) : Option Json := r.attributes.get? key

/-- The index that a part of a path stands for: digits, perhaps after a plus sign. -/
def index? (part : String) : Option Nat :=
  match part.toList with
  | '+' :: cs => parseDigits? cs
  | cs => parseDigits? cs

/-- The part of a value that one part of a path leads to. -/
def step? (v : Json) (part : String) : Option Json :=
  match v with
  | .object fields => Fields.get? fields part
  | .array items => (index? part).bind (items[·]?)
  | _ => none

/-- The value at a dotted path, the first part of which names an attribute. -/
def getPath? (r : Record) (path : String) : Option Json :=
  match splitAll "." path with
  | [] => none
  | first :: rest => rest.foldlM step? =<< r.get? first

def stringAt? (r : Record) (path : String) : Option String :=
  (r.getPath? path).bind Json.asString?

def toJson (r : Record) : Json := .object r.attributes

def ofJson? : Json → Option Record
  | .object fields => some ⟨fields⟩
  | _ => none

end Record

structure Term where
  path : String
  value : Json

def Term.holds (t : Term) (r : Record) : Bool :=
  match r.getPath? t.path with
  | some v => v.same t.value
  | none => false

structure Filter where
  terms : List Term

namespace Filter

def all : Filter := ⟨[]⟩

def isEmpty (f : Filter) : Bool := f.terms.isEmpty

def whereEq (f : Filter) (path : String) (value : Json) : Filter := ⟨f.terms ++ [⟨path, value⟩]⟩

def holds (f : Filter) (r : Record) : Bool := f.terms.all (·.holds r)

/-- The value that a text asks for: a JSON scalar, else the text itself. -/
def termValue (raw : String) : Json :=
  match Json.parse? raw with
  | some v => if v.isScalar then v else .string raw
  | none => .string raw

def parseTerm (text : String) : Except Error Term :=
  match splitFirst? ":" (trim text) with
  | some (path, raw) => .ok ⟨trim path, termValue raw⟩
  | none => .error (.preconditionNotMet ("invalid search term '" ++ trim text ++ "'"))

/-- A search text: terms joined by ` AND `. A blank text and `*:*` ask for nothing. -/
def parse (query : String) : Except Error Filter :=
  let query := trim query
  if query = "" ∨ query = "*:*" then .ok all
  else (splitAll " AND " query).mapM parseTerm |>.map Filter.mk

end Filter

end Provision
