import Provision.Decimal.Shortest
import Provision.Json.Basic
import Provision.Template.Expr
import Provision.Text.Quoted
import Provision.Text.Split

namespace Provision.Template

open Decimal (Binary64)

inductive Value where
  | undefined
  /-- Not there, and that is no error. -/
  | absent
  | none
  | bool (value : Bool)
  | int (value : Int)
  | float (value : Binary64)
  | text (value : String)
  | list (items : List Value)
  | map (entries : List (Value × Value))
  | fragment (name : String) (params : List (String × Option Expr)) (body : List Stmt)
deriving Repr, Inhabited

inductive Numeric where
  | int (value : Int)
  | float (value : Binary64)

namespace Value

def numeric? : Value → Option Numeric
  | .bool b => some (.int (if b then 1 else 0))
  | .int n => some (.int n)
  | .float x => some (.float x)
  | _ => Option.none

def isUndefined : Value → Bool
  | .undefined | .absent => true
  | _ => false

def rank : Value → Nat
  | .undefined | .absent => 0
  | .none => 1
  | .bool _ => 2
  | .int _ | .float _ => 3
  | .text _ => 4
  | .list _ => 5
  | .map _ => 6
  | .fragment .. => 7

end Value

def Numeric.toBinary : Numeric → Binary64
  | .int n => .ofInt n
  | .float x => x

def orderKey (x : Binary64) : Int :=
  if x.negative then -(x.unsignedBits : Int) - 1 else x.unsignedBits

def Numeric.compare : Numeric → Numeric → Ordering
  | .int a, .int b => Ord.compare a b
  | a, b => Ord.compare (orderKey a.toBinary) (orderKey b.toBinary)

def Numeric.same : Numeric → Numeric → Bool
  | .int a, .int b => a == b
  | a, b => a.toBinary.same b.toBinary

namespace Value

def isTrue : Value → Bool
  | .undefined | .absent | .none => false
  | .bool b => b
  | .int n => n != 0
  | .float x => !x.isZero
  | .text s => !s.isEmpty
  | .list items => !items.isEmpty
  | .map entries => !entries.isEmpty
  | .fragment .. => true

def compareScalars (a b : Value) : Ordering :=
  match Ord.compare a.rank b.rank with
  | .eq =>
    match a, b with
    | .text s, .text t => Ord.compare s t
    | a, b =>
      match a.numeric?, b.numeric? with
      | some x, some y => x.compare y
      | _, _ => .eq
  | o => o

mutual

/-- The order of values: by kind, then by size. -/
def compare : Value → Value → Ordering
  | .list as, .list bs => compareItems as bs
  | .map as, .map bs => compareEntries as bs
  | a, b => compareScalars a b

def compareItems : List Value → List Value → Ordering
  | [], [] => .eq
  | [], _ :: _ => .lt
  | _ :: _, [] => .gt
  | a :: as, b :: bs => (compare a b).then (compareItems as bs)

def compareEntries : List (Value × Value) → List (Value × Value) → Ordering
  | [], [] => .eq
  | [], _ :: _ => .lt
  | _ :: _, [] => .gt
  | (k, v) :: as, (l, w) :: bs => ((compare k l).then (compare v w)).then (compareEntries as bs)

end

mutual

def same : Value → Value → Bool
  | .list as, .list bs => sameItems as bs
  | .map as, .map bs => sameEntries as bs
  | .text s, .text t => s == t
  | .none, .none => true
  | a, b =>
    match a.numeric?, b.numeric? with
    | some x, some y => x.same y
    | _, _ => a.isUndefined && b.isUndefined

def sameItems : List Value → List Value → Bool
  | [], [] => true
  | a :: as, b :: bs => same a b && sameItems as bs
  | _, _ => false

def sameEntries : List (Value × Value) → List (Value × Value) → Bool
  | [], [] => true
  | (k, v) :: as, (l, w) :: bs => same k l && same v w && sameEntries as bs
  | _, _ => false

end

def lookup? (entries : List (Value × Value)) (key : Value) : Option Value :=
  (entries.find? fun (k, _) => k.same key).map (·.2)

/-- Puts an entry into its place; a key that is there takes the new value. -/
def insert (entries : List (Value × Value)) (key value : Value) : List (Value × Value) :=
  match entries with
  | [] => [(key, value)]
  | (k, v) :: rest =>
    match key.compare k with
    | .lt => (key, value) :: (k, v) :: rest
    | .eq => (key, value) :: rest
    | .gt => (k, v) :: insert rest key value

def mapOf (entries : List (Value × Value)) : Value :=
  .map (entries.foldl (fun m (k, v) => insert m k v) [])

def floatLayout : Decimal.Layout := ⟨Option.none, Option.none, false, 1⟩

def floatText (x : Binary64) : String :=
  if x.isNaN then "NaN"
  else if x.isFinite then String.ofList (floatLayout.write x)
  else if x.negative then "-inf" else "inf"

def scalarText : Value → String
  | .undefined => "undefined"
  | .absent => ""
  | .none => "None"
  | .bool b => if b then "True" else "False"
  | .int n => Text.intText n
  | .float x => floatText x
  | .text s => Text.quote s
  | .fragment name _ _ => "<macro " ++ name ++ ">"
  | .list _ | .map _ => ""

mutual

def inner : Value → String
  | .list items => "[" ++ innerItems items ++ "]"
  | .map entries => "\x7b" ++ innerEntries entries ++ "\x7d"
  | v => v.scalarText

def innerItems : List Value → String
  | [] => ""
  | [v] => inner v
  | v :: w :: rest => inner v ++ ", " ++ innerItems (w :: rest)

def innerEntries : List (Value × Value) → String
  | [] => ""
  | [(k, v)] => inner k ++ ": " ++ inner v
  | (k, v) :: e :: rest => inner k ++ ": " ++ inner v ++ ", " ++ innerEntries (e :: rest)

end

def toText : Value → String
  | .text s => s
  | .undefined => ""
  | v => v.inner

mutual

def ofJson : Json → Value
  | .null => .none
  | .bool b => .bool b
  | .number (.int n) => .int n
  | .number (.double x) => .float x
  | .string s => .text s
  | .array items => .list (ofItems items)
  | .object fields => mapOf (ofFields fields)

def ofItems : List Json → List Value
  | [] => []
  | v :: rest => ofJson v :: ofItems rest

def ofFields : List (String × Json) → List (Value × Value)
  | [] => []
  | (k, v) :: rest => (.text k, ofJson v) :: ofFields rest

end

def keyText? : Value → Option String
  | .text s => some s
  | .int n => some (Text.intText n)
  | .bool b => some (if b then "true" else "false")
  | _ => Option.none

mutual

/-- The value as JSON; none where a part has no form there. What is not there becomes null. -/
def toJson? : Value → Option Json
  | .undefined | .absent | .none => some .null
  | .bool b => some (.bool b)
  | .int n => if -0x8000000000000000 ≤ n ∧ n < 0x10000000000000000 then some (.int n) else Option.none
  | .float x => some (if x.isFinite then .double x else .null)
  | .text s => some (.string s)
  | .list items => (itemsToJson? items).map .array
  | .map entries => (entriesToJson? entries).map fun fs => .object (Fields.ofEntries fs)
  | .fragment .. => Option.none

def itemsToJson? : List Value → Option (List Json)
  | [] => some []
  | v :: rest => do
    let v ← toJson? v
    let rest ← itemsToJson? rest
    some (v :: rest)

def entriesToJson? : List (Value × Value) → Option (List (String × Json))
  | [] => some []
  | (k, v) :: rest => do
    let k ← keyText? k
    let v ← toJson? v
    let rest ← entriesToJson? rest
    some ((k, v) :: rest)

end

end Value

end Provision.Template
