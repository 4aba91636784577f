import Provision.Decimal.Shortest

namespace Provision

/-- A JSON number: a whole number between -2^63 and 2^64 - 1, or a double. -/
inductive Number where
  | int (value : Int)
  | double (value : Decimal.Binary64)
deriving DecidableEq, Repr

inductive Json where
  | null
  | bool (value : Bool)
  | number (value : Number)
  | string (value : String)
  | array (items : List Json)
  | object (fields : List (String × Json))
deriving Repr, Inhabited

abbrev Fields := List (String × Json)

def Number.same : Number → Number → Bool
  | .int a, .int b => a == b
  | .double a, .double b => a.same b
  | _, _ => false

namespace Fields

def get? (fields : Fields) (key : String) : Option Json := fields.lookup key

def contains (fields : Fields) (key : String) : Bool := (fields.lookup key).isSome

def keys (fields : Fields) : List String := fields.map (·.1)

/-- Gives a key its value: in place if the key is there, else at the end. -/
def set : Fields → String → Json → Fields
  | [], key, value => [(key, value)]
  | (k, v) :: rest, key, value =>
    if k = key then (k, value) :: rest else (k, v) :: set rest key value

/-- A repeated key keeps its first place and takes its last value. -/
def ofEntries (entries : List (String × Json)) : Fields :=
  entries.foldl (fun fields (k, v) => set fields k v) []

/-- Removes a key and puts the last field into its place. -/
def swapRemove : Fields → String → Fields
  | [], _ => []
  | (k, v) :: rest, key =>
    if k = key then
      match rest.getLast? with
      | none => []
      | some last => last :: rest.dropLast
    else (k, v) :: swapRemove rest key

def take? (fields : Fields) (key : String) : Option Json × Fields :=
  match fields.get? key with
  | some v => (some v, fields.swapRemove key)
  | none => (none, fields)

end Fields

namespace Json

def int (n : Int) : Json := .number (.int n)

def nat (n : Nat) : Json := .number (.int n)

def double (x : Decimal.Binary64) : Json := .number (.double x)

def strings (items : List String) : Json := .array (items.map .string)

def option (v : Option Json) : Json := v.getD .null

def optionString (v : Option String) : Json := option (v.map .string)

def isScalar : Json → Bool
  | .array _ | .object _ => false
  | _ => true

def asString? : Json → Option String
  | .string s => some s
  | _ => none

def asBool? : Json → Option Bool
  | .bool b => some b
  | _ => none

def asInt? : Json → Option Int
  | .number (.int n) => some n
  | _ => none

def asArray? : Json → Option (List Json)
  | .array items => some items
  | _ => none

def asObject? : Json → Option Fields
  | .object fields => some fields
  | _ => none

def get? (v : Json) (key : String) : Option Json := v.asObject?.bind (·.get? key)

mutual

/-- Equality of values: numbers as `Number.same`, and objects whatever the order of their
fields. -/
def same : Json → Json → Bool
  | .null, .null => true
  | .bool a, .bool b => a == b
  | .number a, .number b => a.same b
  | .string a, .string b => a == b
  | .array a, .array b => sameItems a b
  | .object a, .object b => a.length == b.length && sameFields a b
  | _, _ => false

def sameItems : List Json → List Json → Bool
  | [], [] => true
  | a :: as, b :: bs => same a b && sameItems as bs
  | _, _ => false

def sameFields : List (String × Json) → List (String × Json) → Bool
  | [], _ => true
  | (k, v) :: rest, other =>
    (match other.lookup k with
    | some w => same v w
    | none => false) && sameFields rest other

end

end Json

end Provision
