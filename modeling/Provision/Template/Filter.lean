import Provision.Template.Arithmetic
import Provision.Template.Token
import Provision.Text.CaseMap
import Provision.Text.Lines

namespace Provision.Template

open Decimal (Binary64)

structure Given where
  positional : List Value
  named : List (String × Value)

def Given.none : Given := ⟨[], []⟩

def Given.get? (args : Given) (name : String) : Option Value := args.named.lookup name

def Given.flag (args : Given) (name : String) : Bool := (args.get? name).any Value.isTrue

def textOf (v : Value) : Except Failure String :=
  if v.isUndefined then .error .undefinedValue else .ok v.toText

def numberOf (v : Value) : Except Failure Int :=
  match indexOf? v with
  | some n => .ok n
  | none => .error (.unfit "number")

def capitalize (s : String) : String :=
  match s.toList with
  | [] => ""
  | c :: cs => String.ofList (Text.upperChar c) ++ Text.lower (String.ofList cs)

def isAsciiPunctuation (c : Char) : Bool :=
  let n := c.toNat
  (0x21 ≤ n && n ≤ 0x2f) || (0x3a ≤ n && n ≤ 0x40) || (0x5b ≤ n && n ≤ 0x60) || (0x7b ≤ n && n ≤ 0x7e)

def titleChars : Bool → List Char → List Char
  | _, [] => []
  | start, c :: cs =>
    if isAsciiPunctuation c || Text.isBlank c then c :: titleChars true cs
    else (if start then Text.upperChar c else Text.lowerChar c) ++ titleChars false cs

def trimSet (set : List Char) (cs : List Char) : List Char :=
  ((cs.dropWhile set.contains).reverse.dropWhile set.contains).reverse

def splitLimit (sep : List Char) : Nat → List Char → List (List Char)
  | 0, _ => []
  | 1, cs => [cs]
  | n + 1, cs =>
    match Text.splitFirstChars sep cs with
    | some (a, b) => a :: splitLimit sep n b
    | none => [cs]

def texts (parts : List String) : Value := .list (parts.map .text)

def escapeChar (c : Char) : List Char :=
  match c with
  | '<' => "&lt;".toList
  | '>' => "&gt;".toList
  | '&' => "&amp;".toList
  | '"' => "&quot;".toList
  | '\'' => "&#x27;".toList
  | '/' => "&#x2f;".toList
  | c => [c]

def joinItems (sep : String) (items : List Value) : String :=
  items.foldl (fun acc v => (if acc.isEmpty then acc else acc ++ sep) ++ v.toText) ""

def sumItems : Value → List Value → Except Failure Value
  | acc, [] => .ok acc
  | acc, v :: rest =>
    match v with
    | .int _ | .float _ => do sumItems (← applyOp .add acc v) rest
    | .undefined => .error .undefinedValue
    | _ => .error (.unfit "sum")

/-- The value at a dotted path. -/
def pathValue (path v : Value) : Except Failure Value :=
  match path with
  | .text s => (Text.splitAll "." s).foldlM (fun v part => lookInto v (.text part)) v
  | key => lookInto v key

/-- The key that two values are compared by: texts without regard to case, unless asked. -/
def sortKey (args : Given) (v : Value) : Except Failure Value := do
  let v ← match args.get? "attribute" with
    | some path => pathValue path v
    | none => .ok v
  match v with
  | .text s => .ok (.text (if args.flag "case_sensitive" then s else Text.lower s))
  | v => .ok v

def sortBy (reversed : Bool) (keyed : List (Value × Value)) : List Value :=
  let before (a b : Value × Value) : Bool :=
    if reversed then a.1.compare b.1 != .lt else a.1.compare b.1 != .gt
  (keyed.mergeSort before).map (·.2)

def withKeys (args : Given) (items : List Value) : Except Failure (List (Value × Value)) :=
  items.mapM fun v => do .ok (← sortKey args v, v)

/-- The items without those whose key came before. -/
def distinct : List Value → List (Value × Value) → List Value
  | _, [] => []
  | seen, (k, v) :: rest =>
    if seen.any k.same then distinct seen rest else v :: distinct (k :: seen) rest

def best? (better : Ordering) : List Value → Option Value
  | [] => none
  | v :: rest =>
    match best? better rest with
    | none => some v
    | some w => if w.compare v = better then some w else some v

def pairs (entries : List (Value × Value)) : Value :=
  .list (entries.map fun (k, v) => .list [k, v])

def dictSort (args : Given) (entries : List (Value × Value)) : Except Failure Value := do
  let byValue := (args.get? "by").any (·.same (.text "value"))
  let keyed ← entries.mapM fun (k, v) => do
    .ok (← sortKey args (if byValue then v else k), Value.list [k, v])
  .ok (.list (sortBy (args.flag "reverse") keyed))

/-- A number rounded to a number of places, a half away from zero. -/
def roundFloat (x : Binary64) (places : Int) : Except Failure Value :=
  let scale := Float.pow 10.0 (Binary64.ofInt places).toFloat
  floatResult ((scale * x.toFloat).round / scale)

def truncate (x : Binary64) : Int :=
  if x.isFinite then
    let m := x.magnitude
    let n : Int := if 0 ≤ m.exponent then m.mantissa * Nat.pow 2 m.exponent.toNat
      else m.mantissa / Nat.pow 2 (-m.exponent).toNat
    if x.negative then -n else n
  else 0

def parseFloat? (s : String) : Option Binary64 :=
  let (negative, cs) : Bool × List Char := match s.toList with
    | '-' :: r => (true, r)
    | '+' :: r => (false, r)
    | r => (false, r)
  let (text, _, rest) := takeNumber .whole cs
  if rest.isEmpty && !text.contains '_' then
    (floatValue? text).map fun x => if negative then x.neg else x
  else none

def parseInt? (s : String) : Option Int :=
  match s.toList with
  | '-' :: r => (Text.parseDigits? r).map fun n => -(n : Int)
  | '+' :: r => (Text.parseDigits? r).map Int.ofNat
  | r => (Text.parseDigits? r).map Int.ofNat

def toInt (v : Value) : Except Failure Value :=
  match v with
  | .undefined | .absent | .none => .ok (.int 0)
  | .bool b => .ok (.int (if b then 1 else 0))
  | .int n => .ok (.int n)
  | .float x => .ok (.int (truncate x))
  | .text s =>
    match parseInt? s, parseFloat? s with
    | some n, _ => wholeResult n
    | none, some x => .ok (.int (truncate x))
    | none, none => .error (.unfit "int")
  | _ => .error (.unfit "int")

def toFloat (v : Value) : Except Failure Value :=
  match v with
  | .undefined | .absent | .none => .ok (.float .zero)
  | .text s =>
    match parseFloat? s with
    | some x => .ok (.float x)
    | none => .error (.unfit "float")
  | v =>
    match v.numeric? with
    | some n => .ok (.float n.toBinary)
    | none => .error (.unfit "float")

def lengthOf (v : Value) : Except Failure Value :=
  match v with
  | .text s => .ok (.int s.length)
  | .list items => .ok (.int items.length)
  | .map entries => .ok (.int entries.length)
  | _ => .error (.unfit "length")

def firstOf (v : Value) : Except Failure Value :=
  match v with
  | .text s => .ok ((s.toList.head?.map fun c => Value.text (String.singleton c)).getD .undefined)
  | .list items => .ok (items.head?.getD .undefined)
  | .map entries => .ok ((entries.head?.map (·.1)).getD .undefined)
  | _ => .error (.unfit "first")

def lastOf (v : Value) : Except Failure Value :=
  match v with
  | .text s => .ok ((s.toList.getLast?.map fun c => Value.text (String.singleton c)).getD .undefined)
  | .list items => .ok (items.getLast?.getD .undefined)
  | _ => .error (.unfit "last")

def reversed (v : Value) : Except Failure Value :=
  match v with
  | .undefined | .absent | .none => .ok v
  | .text s => .ok (.text (String.ofList s.toList.reverse))
  | .list items => .ok (.list items.reverse)
  | .map entries => .ok (.list (entries.reverse.map (·.1)))
  | _ => .error (.unfit "reverse")

def textFilter (name s : String) (args : List Value) : Except Failure Value :=
  match name, args with
  | "upper", [] => .ok (.text (Text.upper s))
  | "lower", [] => .ok (.text (Text.lower s))
  | "title", [] => .ok (.text (String.ofList (titleChars true s.toList)))
  | "capitalize", [] => .ok (.text (capitalize s))
  | "trim", [] => .ok (.text (Text.trim s))
  | "trim", [chars] => do
    let chars ← textOf chars
    .ok (.text (String.ofList (trimSet chars.toList s.toList)))
  | "replace", [a, b] => do
    let a ← textOf a
    let b ← textOf b
    .ok (.text (Text.replaceAll a b s))
  | "split", [] => .ok (texts (Text.words s))
  | "split", [sep] => do
    match sep with
    | .none => .ok (texts (Text.words s))
    | sep => do
      let sep ← textOf sep
      .ok (texts (Text.splitAll sep s))
  | "split", [sep, limit] => do
    let sep ← textOf sep
    let limit ← numberOf limit
    if limit < 0 then .ok (texts (Text.splitAll sep s))
    else .ok (texts ((splitLimit sep.toList (limit.toNat + 1) s.toList).map String.ofList))
  | "lines", [] => .ok (texts (Text.lines s))
  | "escape", [] | "e", [] => .ok (.text (String.ofList (s.toList.flatMap escapeChar)))
  | "safe", [] => .ok (.text s)
  | _, _ => .error (.unknownName name)

def textFilterNames : List String :=
  ["upper", "lower", "title", "capitalize", "trim", "replace", "split", "lines", "escape", "e", "safe"]

def itemsFilter (name : String) (items : List Value) (args : Given) : Except Failure Value :=
  match name, args.positional with
  | "list", [] => .ok (.list items)
  | "sum", [] => sumItems (.int 0) items
  | "min", [] => .ok ((best? .lt items).getD .undefined)
  | "max", [] => .ok ((best? .gt items.reverse).getD .undefined)
  | "sort", [] => do .ok (.list (sortBy (args.flag "reverse") (← withKeys args items)))
  | "unique", [] => do .ok (.list (distinct [] (← withKeys args items)))
  | _, _ => .error (.unknownName name)

def itemsFilterNames : List String := ["list", "sum", "min", "max", "sort", "unique"]

def valueFilter (name : String) (v : Value) (args : Given) : Except Failure Value :=
  match name, args.positional with
  | "default", [] | "d", [] => .ok (if v.isUndefined then .text "" else v)
  | "default", [other] | "d", [other] => .ok (if v.isUndefined then other else v)
  | "default", [other, lax] | "d", [other, lax] =>
    .ok (if v.isUndefined || (lax.isTrue && !v.isTrue) then other else v)
  | "length", [] | "count", [] => lengthOf v
  | "first", [] => firstOf v
  | "last", [] => lastOf v
  | "reverse", [] => reversed v
  | "join", [] | "join", [.none] | "join", [.undefined] =>
    if v.isUndefined || v.rank = 1 then .ok (.text "") else do .ok (.text (joinItems "" (← itemsOf v)))
  | "join", [sep] =>
    if v.isUndefined || v.rank = 1 then .ok (.text "")
    else do .ok (.text (joinItems sep.toText (← itemsOf v)))
  | "items", [] =>
    match v with
    | .map entries => .ok (pairs entries)
    | _ => .error (.unfit "items")
  | "dictsort", [] =>
    match v with
    | .map entries => dictSort args entries
    | _ => .error (.unfit "dictsort")
  | "bool", [] => .ok (.bool v.isTrue)
  | "int", [] => toInt v
  | "float", [] => toFloat v
  | "string", [] => do .ok (.text (← textOf v))
  | "attr", [key] => lookInto v key
  | "abs", [] =>
    match v with
    | .int n => wholeResult n.natAbs
    | .float x => .ok (.float (if x.negative then x.neg else x))
    | _ => .error (.unfit "abs")
  | "round", args => do
    let places ← match args with
      | [] => .ok 0
      | [n] => numberOf n
      | _ => .error (.unfit "round")
    match v with
    | .int n => .ok (.int n)
    | .float x => roundFloat x places
    | _ => .error (.unfit "round")
  | _, _ => .error (.unknownName name)

def applyFilter (name : String) (v : Value) (args : Given) : Except Failure Value :=
  if textFilterNames.contains name then do textFilter name (← textOf v) args.positional
  else if itemsFilterNames.contains name then do itemsFilter name (← itemsOf v) args
  else valueFilter name v args

def isWhole (v : Value) : Bool :=
  match v with
  | .int _ => true
  | _ => false

def remainderIs (v : Value) (divisor : Int) (r : Int) : Bool := (indexOf? v).any (· % divisor == r)

def applyTest (name : String) (v : Value) (args : List Value) : Except Failure Bool :=
  match name, args with
  | "defined", [] => .ok (!v.isUndefined)
  | "undefined", [] => .ok v.isUndefined
  | "none", [] => .ok (v.rank = 1)
  | "boolean", [] => .ok (v.rank = 2)
  | "number", [] => .ok (v.rank = 3)
  | "integer", [] => .ok (isWhole v)
  | "float", [] => .ok (v.rank = 3 && !isWhole v)
  | "string", [] => .ok (v.rank = 4)
  | "sequence", [] => .ok (v.rank = 5)
  | "mapping", [] => .ok (v.rank = 6)
  | "iterable", [] => .ok (v.rank = 4 || v.rank = 5 || v.rank = 6)
  | "true", [] => .ok (v.rank = 2 && v.isTrue)
  | "false", [] => .ok (v.rank = 2 && !v.isTrue)
  | "odd", [] => .ok (remainderIs v 2 1)
  | "even", [] => .ok (remainderIs v 2 0)
  | "divisibleby", [d] =>
    match indexOf? d with
    | some n => .ok (n ≠ 0 && remainderIs v n 0)
    | none => .ok false
  | "startingwith", [part] => do .ok (Text.startsWith (← textOf part) (← textOf v))
  | "endingwith", [part] => do .ok (Text.endsWith (← textOf part) (← textOf v))
  | "lower", [] => do
    let s ← textOf v
    .ok (s == Text.lower s)
  | "upper", [] => do
    let s ← textOf v
    .ok (s == Text.upper s)
  | "in", [container] => contains container v
  | "sameas", [w] => .ok (v.rank = w.rank && v.same w)
  | "eq", [w] | "equalto", [w] => .ok (v.same w)
  | "ne", [w] => .ok (!v.same w)
  | "lt", [w] | "lessthan", [w] => .ok (v.compare w == .lt)
  | "le", [w] => .ok (v.compare w != .gt)
  | "gt", [w] | "greaterthan", [w] => .ok (v.compare w == .gt)
  | "ge", [w] => .ok (v.compare w != .lt)
  | _, _ => .error (.unknownName name)

def applyNested (name : String) (v : Value) (args : Given) : Except Failure Value := do
  let named? : Option (String × List Value) := match args.positional with
    | .text s :: rest => some (s, rest)
    | _ => none
  let keeps (x : Value) (test : Option (String × List Value)) : Except Failure Bool :=
    match test with
    | some (test, rest) => applyTest test x rest
    | none => .ok x.isTrue
  match name with
  | "map" => do
    let items ← itemsOf v
    match args.get? "attribute", named? with
    | some path, none => do
      let out ← items.mapM fun x => do
        let y ← pathValue path x
        match y, args.get? "default" with
        | .undefined, some other => .ok other
        | y, _ => .ok y
      .ok (.list out)
    | none, some (filter, rest) => do
      .ok (.list (← items.mapM fun x => applyFilter filter x ⟨rest, args.named⟩))
    | _, _ => .error (.unfit "map")
  | "select" => do .ok (.list (← (← itemsOf v).filterM fun x => keeps x named?))
  | "reject" => do .ok (.list (← (← itemsOf v).filterM fun x => do .ok (!(← keeps x named?))))
  | "selectattr" | "rejectattr" => do
    match args.positional with
    | path :: rest => do
      let test : Option (String × List Value) := match rest with
        | .text s :: more => some (s, more)
        | _ => none
      .ok (.list (← (← itemsOf v).filterM fun x => do
        let found ← keeps (← pathValue path x) test
        .ok (found == (name = "selectattr"))))
    | [] => .error (.unfit name)
  | _ => applyFilter name v args

end Provision.Template
