namespace Provision.Decimal

structure Binary64 where
  bits : UInt64
deriving DecidableEq, Repr, Inhabited

structure Magnitude where
  mantissa : Nat
  exponent : Int
deriving DecidableEq, Repr

namespace Binary64

def negative (x : Binary64) : Bool := Nat.pow 2 63 ≤ x.bits.toNat

def unsignedBits (x : Binary64) : Nat := x.bits.toNat % Nat.pow 2 63

def biasedExponent (x : Binary64) : Nat := x.unsignedBits / Nat.pow 2 52

def fraction (x : Binary64) : Nat := x.unsignedBits % Nat.pow 2 52

def isFinite (x : Binary64) : Bool := x.biasedExponent < 2047

def isNaN (x : Binary64) : Bool := x.biasedExponent == 2047 && x.fraction != 0

def magnitude (x : Binary64) : Magnitude :=
  if x.biasedExponent = 0 then ⟨x.fraction, -1074⟩
  else ⟨Nat.pow 2 52 + x.fraction, (x.biasedExponent : Int) - 1075⟩

def isZero (x : Binary64) : Bool := x.unsignedBits == 0

def toFloat (x : Binary64) : Float := Float.ofBits x.bits

def ofFloat (f : Float) : Binary64 := ⟨f.toBits⟩

def neg (x : Binary64) : Binary64 :=
  ⟨if x.negative then x.bits - 0x8000000000000000 else x.bits + 0x8000000000000000⟩

def zero : Binary64 := ⟨0⟩

def same (x y : Binary64) : Bool :=
  !x.isNaN && !y.isNaN && (x.bits == y.bits || (x.isZero && y.isZero))

end Binary64

/-- The quotient rounded to the nearest whole number, a half to the even neighbour. -/
def roundHalfEven (num den : Nat) : Nat :=
  let q := num / den
  let r := num % den
  if 2 * r < den then q
  else if 2 * r > den then q + 1
  else if q % 2 = 0 then q else q + 1

/-- The double nearest to `num / den`, infinity where every finite double is too small. -/
def ofRatio (num den : Nat) : Binary64 :=
  if num = 0 ∨ den = 0 then .zero
  else
    let guess : Int := (num.log2 : Int) - (den.log2 : Int) - 52
    let scaled (q : Int) : Nat × Nat :=
      if 0 ≤ q then (num, den * Nat.pow 2 q.toNat) else (num * Nat.pow 2 (-q).toNat, den)
    let (a, b) := scaled guess
    let exponent := max (if a / b < Nat.pow 2 52 then guess - 1 else guess) (-1074)
    let (a, b) := scaled exponent
    let bits := roundHalfEven a b + (exponent + 1074).toNat * Nat.pow 2 52
    ⟨UInt64.ofNat (min bits (2047 * Nat.pow 2 52))⟩

/-- The double nearest to `m * 10 ^ e`. Magnitudes far outside the range of doubles are settled
from the count of digits. -/
def ofDecimal (m : Nat) (e : Int) : Binary64 :=
  let size : Int := (Nat.toDigits 10 m).length + e
  if m = 0 then .zero
  else if size > 400 then ⟨0x7ff0000000000000⟩
  else if size < -400 then .zero
  else if 0 ≤ e then ofRatio (m * Nat.pow 10 e.toNat) 1
  else ofRatio m (Nat.pow 10 (-e).toNat)

def Binary64.ofNat (n : Nat) : Binary64 := ofRatio n 1

def Binary64.ofInt : Int → Binary64
  | .ofNat n => .ofNat n
  | .negSucc n => (Binary64.ofNat (n + 1)).neg

end Provision.Decimal
