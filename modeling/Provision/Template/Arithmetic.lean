import Provision.Template.Value

namespace Provision.Template

open Decimal (Binary64)

def wholeResult (n : Int) : Except Failure Value :=
  if -(Int.pow 2 127) ≤ n ∧ n < Int.pow 2 127 then .ok (.int n) else .error (.unfit "overflow")

def floatResult (x : Float) : Except Failure Value := .ok (.float (.ofFloat x))

def floatRemainder (x y : Binary64) : Binary64 :=
  if !x.isFinite || y.isNaN || y.isZero then .ofFloat (0.0 / 0.0)
  else if !y.isFinite then x
  else
    let a := x.magnitude
    let b := y.magnitude
    let e := min a.exponent b.exponent
    let m := (a.mantissa * Nat.pow 2 (a.exponent - e).toNat) % (b.mantissa * Nat.pow 2 (b.exponent - e).toNat)
    let r := if 0 ≤ e then Decimal.ofRatio (m * Nat.pow 2 e.toNat) 1 else Decimal.ofRatio m (Nat.pow 2 (-e).toNat)
    if x.negative then r.neg else r

/-- The whole quotient that leaves a remainder not below zero. -/
def floatQuotient (x y : Binary64) : Binary64 :=
  let q := x.toFloat / y.toFloat
  let q := if q < 0.0 then q.ceil else q.floor
  let r := floatRemainder x y
  .ofFloat (if r.toFloat < 0.0 then (if y.toFloat > 0.0 then q - 1.0 else q + 1.0) else q)

def wholePower (a b : Int) : Except Failure Value :=
  if b < 0 then .error (.unfit "**")
  else if a.natAbs ≤ 1 then
    .ok (.int (if b = 0 then 1 else if b % 2 = 0 then a * a else a))
  else if b > 127 then .error (.unfit "overflow")
  else wholeResult (Int.pow a b.toNat)

def numericOp (op : BinaryOp) (a b : Numeric) : Except Failure Value :=
  match op, a, b with
  | .div, a, b => floatResult (a.toBinary.toFloat / b.toBinary.toFloat)
  | .add, .int a, .int b => wholeResult (a + b)
  | .sub, .int a, .int b => wholeResult (a - b)
  | .mul, .int a, .int b => wholeResult (a * b)
  | .floorDiv, .int a, .int b => if b = 0 then .error (.unfit "//") else wholeResult (a / b)
  | .rem, .int a, .int b => if b = 0 then .error (.unfit "%") else wholeResult (a % b)
  | .pow, .int a, .int b => wholePower a b
  | .add, a, b => floatResult (a.toBinary.toFloat + b.toBinary.toFloat)
  | .sub, a, b => floatResult (a.toBinary.toFloat - b.toBinary.toFloat)
  | .mul, a, b => floatResult (a.toBinary.toFloat * b.toBinary.toFloat)
  | .floorDiv, a, b => .ok (.float (floatQuotient a.toBinary b.toBinary))
  | .rem, a, b => .ok (.float (floatRemainder a.toBinary b.toBinary))
  | .pow, a, b => floatResult (Float.pow a.toBinary.toFloat b.toBinary.toFloat)
  | _, _, _ => .error (.unfit "operator")

def repeatText (s : String) (n : Int) : Except Failure Value :=
  if n < 0 then .error (.unfit "*") else .ok (.text (String.join (List.replicate n.toNat s)))

def repeatList (items : List Value) (n : Int) : Except Failure Value :=
  if n < 0 then .error (.unfit "*") else .ok (.list (List.replicate n.toNat items).flatten)

def contains (container v : Value) : Except Failure Bool :=
  match container with
  | .undefined => .error .undefinedValue
  | .absent => .ok false
  | .text s => .ok (Text.containsText v.toText s)
  | .list items => .ok (items.any v.same)
  | .map entries => .ok (Value.lookup? entries v).isSome
  | _ => .error (.unfit "in")

def applyOp (op : BinaryOp) (a b : Value) : Except Failure Value :=
  match op, a, b with
  | .equal, a, b => .ok (.bool (a.same b))
  | .notEqual, a, b => .ok (.bool (!a.same b))
  | .less, a, b => .ok (.bool (a.compare b == .lt))
  | .lessEqual, a, b => .ok (.bool (a.compare b != .gt))
  | .greater, a, b => .ok (.bool (a.compare b == .gt))
  | .greaterEqual, a, b => .ok (.bool (a.compare b != .lt))
  | .isIn, a, b => do .ok (.bool (← contains b a))
  | .notIn, a, b => do .ok (.bool (!(← contains b a)))
  | .concat, a, b => .ok (.text (a.toText ++ b.toText))
  | .add, .text s, .text t => .ok (.text (s ++ t))
  | .add, .list as, .list bs => .ok (.list (as ++ bs))
  | .mul, .text s, .int n | .mul, .int n, .text s => repeatText s n
  | .mul, .list items, .int n | .mul, .int n, .list items => repeatList items n
  | op, a, b =>
    match a.numeric?, b.numeric? with
    | some x, some y => numericOp op x y
    | _, _ => .error (.unfit "operator")

def negate : Value → Except Failure Value
  | .int n => wholeResult (-n)
  | .float x => .ok (.float x.neg)
  | _ => .error (.unfit "-")

/-- A condition: a value that is not there is neither true nor false. -/
def condition : Value → Except Failure Bool
  | .undefined => .error .undefinedValue
  | v => .ok v.isTrue

def itemsOf : Value → Except Failure (List Value)
  | .undefined => .error .undefinedValue
  | .absent | .none => .ok []
  | .text s => .ok (s.toList.map fun c => .text (String.singleton c))
  | .list items => .ok items
  | .map entries => .ok (entries.map (·.1))
  | _ => .error (.unfit "iteration")

def indexOf? : Value → Option Int
  | .bool b => some (if b then 1 else 0)
  | .int n => some n
  | .float x => if Numeric.same (.int x.toFloat.toInt64.toInt) (.float x) then some x.toFloat.toInt64.toInt else none
  | _ => none

def itemAt? {α : Type} (items : List α) (i : Int) : Option α :=
  if 0 ≤ i then items[i.toNat]?
  else if i.natAbs ≤ items.length then items[items.length - i.natAbs]?
  else none

/-- The part of a value that a key leads to. -/
def part? (v key : Value) : Option Value :=
  match v with
  | .map entries => Value.lookup? entries key
  | .list items => (indexOf? key).bind (itemAt? items)
  | .text s => (indexOf? key).bind fun i => (itemAt? s.toList i).map fun c => .text (String.singleton c)
  | _ => none

/-- The part of a value that a key leads to; only what is there can be looked into. -/
def lookInto (v key : Value) : Except Failure Value :=
  match part? v key with
  | some w => .ok w
  | none => if v.isUndefined then .error .undefinedValue else .ok .undefined

def every {α : Type} (n : Nat) : Nat → List α → List α
  | _, [] => []
  | 0, x :: rest => x :: every n (n - 1) rest
  | k + 1, _ :: rest => every n k rest

def sliceForward {α : Type} (items : List α) (start stop : Option Int) (step : Nat) : List α :=
  let size : Int := items.length
  let place (i : Int) : Int := if i < 0 then size + i else i
  let first := place (start.getD 0)
  let last := place (stop.getD size)
  if first < 0 then []
  else if last < 0 then every step 0 (items.drop first.toNat)
  else every step 0 ((items.drop first.toNat).take (last - first).toNat)

def sliceBackward {α : Type} (items : List α) (start stop : Option Int) (step : Nat) : List α :=
  let size : Int := items.length
  let place (i : Int) : Nat := (if i < 0 then max (size + i) 0 else i).toNat
  let first := match start with
    | none => items.length - 1
    | some i => if i ≥ size then items.length - 1 else place i
  let last := match stop with
    | none => 0
    | some i => place i
  let count := if last = 0 then (first + step) / step else (first - last + step - 1) / step
  (List.range count).filterMap fun k => if k * step ≤ first then items[first - k * step]? else none

def sliceItems {α : Type} (items : List α) (start stop : Option Int) (step : Int) : List α :=
  if 0 < step then sliceForward items start stop step.toNat
  else sliceBackward items start stop step.natAbs

def sliceBound : Value → Except Failure (Option Int)
  | .none => .ok Option.none
  | v =>
    match indexOf? v with
    | some n => .ok (some n)
    | Option.none => .error (.unfit "slice")

def slice (v start stop step : Value) : Except Failure Value := do
  let start ← sliceBound start
  let stop ← sliceBound stop
  let step := (← sliceBound step).getD 1
  if step = 0 then .error (.unfit "slice")
  else
    match v with
    | .list items => .ok (.list (sliceItems items start stop step))
    | .text s => .ok (.text (String.ofList (sliceItems s.toList start stop step)))
    | .undefined => .error .undefinedValue
    | .absent | .none => .ok (.list [])
    | _ => .error (.unfit "slice")

end Provision.Template
