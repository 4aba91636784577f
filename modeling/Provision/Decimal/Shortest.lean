import Provision.Decimal.Binary64

namespace Provision.Decimal

structure Digits where
  digits : Nat
  exponent : Int
deriving DecidableEq, Repr

/-- The exact value of a double and the ends of its rounding interval, in units of a quarter of
the last place: `num / den` is one unit. -/
structure Interval where
  value : Nat
  low : Nat
  high : Nat
  num : Nat
  den : Nat
  closed : Bool

/-- A power of two has its lower neighbour at half the usual distance, the smallest normal
double excepted. -/
def Magnitude.interval (x : Magnitude) : Interval :=
  let low := if x.mantissa = Nat.pow 2 52 ∧ -1074 < x.exponent then 4 * x.mantissa - 1
    else 4 * x.mantissa - 2
  let e := x.exponent - 2
  { value := 4 * x.mantissa, low, high := 4 * x.mantissa + 2
    num := if 0 ≤ e then Nat.pow 2 e.toNat else 1
    den := if 0 ≤ e then 1 else Nat.pow 2 (-e).toNat
    closed := x.mantissa % 2 = 0 }

def leadingExponent (num den : Nat) : Int :=
  if den ≤ num then ((Nat.toDigits 10 (num / den)).length : Int) - 1
  else
    let ceil := (den + num - 1) / num
    Int.negOfNat (Nat.toDigits 10 (ceil - 1)).length

def Interval.contains (i : Interval) (d : Nat) (e : Int) : Bool :=
  let a := (if 0 ≤ e then d * Nat.pow 10 e.toNat else d) * i.den
  let s := if 0 ≤ e then 1 else Nat.pow 10 (-e).toNat
  let low := i.low * i.num * s
  let high := i.high * i.num * s
  if i.closed then low ≤ a && a ≤ high else low < a && a < high

/-- The better of the two `n`-digit neighbours that read back, if there is one; of two equally
near ones, the even. -/
def Interval.onGrid? (i : Interval) (e : Int) : Option Digits :=
  let num := i.value * i.num * (if 0 ≤ e then 1 else Nat.pow 10 (-e).toNat)
  let den := i.den * (if 0 ≤ e then Nat.pow 10 e.toNat else 1)
  let d := num / den
  let r := num % den
  let down := d ≠ 0 && i.contains d e
  let up := i.contains (d + 1) e
  match down, up with
  | false, false => none
  | true, false => some ⟨d, e⟩
  | false, true => some ⟨d + 1, e⟩
  | true, true =>
    if 2 * r < den || (2 * r == den && d % 2 == 0) then some ⟨d, e⟩ else some ⟨d + 1, e⟩

def Digits.strip (x : Digits) : Nat → Digits
  | 0 => x
  | n + 1 => if x.digits % 10 = 0 ∧ x.digits ≠ 0 then strip ⟨x.digits / 10, x.exponent + 1⟩ n else x

/-- The fewest digits that read back as the positive magnitude. -/
def Magnitude.shortest (x : Magnitude) : Digits :=
  let i := x.interval
  let lead := leadingExponent (i.value * i.num) i.den
  let found := (List.range 17).findSome? fun n : Nat => i.onGrid? (lead - n)
  (found.getD ⟨x.mantissa, x.exponent⟩).strip 20

/-- How a double is written: the decimal exponents of the leading digit that are written without
an exponent part, and the form of the exponent part elsewhere. -/
structure Layout where
  positionalFrom : Option Int
  positionalTo : Option Int
  plusSign : Bool
  exponentWidth : Nat

def padLeft (width : Nat) (cs : List Char) : List Char :=
  List.replicate (width - cs.length) '0' ++ cs

def Layout.isPositional (l : Layout) (e : Int) : Bool :=
  l.positionalFrom.all (· ≤ e) && l.positionalTo.all (e ≤ ·)

def positionalText (ds : List Char) (e : Int) : List Char :=
  if e < 0 then '0' :: '.' :: List.replicate ((-e).toNat - 1) '0' ++ ds
  else
    let whole := e.toNat + 1
    if ds.length ≤ whole then ds ++ List.replicate (whole - ds.length) '0' ++ ['.', '0']
    else ds.take whole ++ '.' :: ds.drop whole

def Layout.exponentText (l : Layout) (ds : List Char) (e : Int) : List Char :=
  let head := match ds with
    | d :: r => if r.isEmpty then [d] else d :: '.' :: r
    | [] => []
  let sign := if e < 0 then ['-'] else if l.plusSign then ['+'] else []
  head ++ 'e' :: sign ++ padLeft l.exponentWidth (Nat.toDigits 10 e.natAbs)

def Layout.write (l : Layout) (x : Binary64) : List Char :=
  let sign := if x.negative then ['-'] else []
  if x.isZero then sign ++ ['0', '.', '0']
  else
    let s := x.magnitude.shortest
    let ds := Nat.toDigits 10 s.digits
    let e := s.exponent + ds.length - 1
    sign ++ if l.isPositional e then positionalText ds e else l.exponentText ds e

end Provision.Decimal
