import Provision.Pattern.CharSet

namespace Provision

inductive Pattern.Look where
  | textStart
  | textEnd
  | lineStart
  | lineEnd
  | lineStartEither
  | lineEndEither
  | wordBoundary (ascii : Bool)
  | notWordBoundary (ascii : Bool)
  | wordStart (ascii : Bool)
  | wordEnd (ascii : Bool)
  | wordStartHalf (ascii : Bool)
  | wordEndHalf (ascii : Bool)
deriving Repr, DecidableEq

inductive Pattern where
  | empty
  | chars (set : Pattern.CharSet)
  | look (condition : Pattern.Look)
  | seq (a b : Pattern)
  | alt (a b : Pattern)
  | times (a : Pattern) (low : Nat) (high : Option Nat)
deriving Repr, Inhabited

namespace Pattern

def Look.holds (k : Look) (before after : Option Char) : Bool :=
  let word (ascii : Bool) (c : Option Char) : Bool :=
    c.any fun c => if ascii then CharSet.asciiWord.contains c else CharSet.word.contains c
  match k with
  | .textStart => before.isNone
  | .textEnd => after.isNone
  | .lineStart => before.all (· == '\n')
  | .lineEnd => after.all (· == '\n')
  | .lineStartEither => before.all fun b => b == '\n' || (b == '\r' && after != some '\n')
  | .lineEndEither => after.all fun a => a == '\r' || (a == '\n' && before != some '\r')
  | .wordBoundary a => word a before != word a after
  | .notWordBoundary a => word a before == word a after
  | .wordStart a => !word a before && word a after
  | .wordEnd a => word a before && !word a after
  | .wordStartHalf a => !word a before
  | .wordEndHalf a => !word a after

def ofBits : List Bool → Nat
  | [] => 0
  | b :: rest => (if b then 1 else 0) + 2 * ofBits rest

/-- The positions before a character of the set. -/
def charBits (set : CharSet) (text : List Char) : Nat := ofBits (text.map set.contains)

/-- The positions of the text, from the one before its first character, that meet a condition. -/
def lookBits (k : Look) : Option Char → List Char → List Bool
  | before, [] => [k.holds before none]
  | before, c :: rest => k.holds before (some c) :: lookBits k (some c) rest

def iterate (step : Nat → Nat) : Nat → Nat → Nat
  | 0, s => s
  | n + 1, s => if step s = s then s else iterate step n (step s)

def closure (step : Nat → Nat) : Nat → Nat → Nat
  | 0, s => s
  | n + 1, s => if s ||| step s = s then s else closure step n (s ||| step s)

/-- The positions where a match can end that starts at one of the given positions. After one more
repetition than the text has characters a further one changes nothing. -/
def ends (text : List Char) : Pattern → Nat → Nat
  | .empty, s => s
  | .chars set, s => (s &&& charBits set text) <<< 1
  | .look k, s => s &&& ofBits (lookBits k none text)
  | .seq a b, s => ends text b (ends text a s)
  | .alt a b, s => ends text a s ||| ends text b s
  | .times a low high, s =>
    let bound := text.length + 2
    let first := iterate (ends text a) (min low bound) s
    match high with
    | none => closure (ends text a) bound first
    | some h => closure (ends text a) (min (h - low) bound) first

def isMatch (p : Pattern) (text : String) : Bool :=
  ends text.toList p (1 <<< (text.length + 1) - 1) != 0

def cost : Pattern → Nat
  | .empty => 0
  | .chars set => set.cost
  | .look _ => 32
  | .seq a b | .alt a b => cost a + cost b + 32
  | .times a low high => (cost a + 32) * (match high with | none => low + 1 | some h => max h low) + 32

def depth : Pattern → Nat
  | .seq a b => max (depth a) (depth b)
  | .alt a b => max (depth a) (depth b)
  | .times a _ _ => depth a + 1
  | _ => 1

end Pattern

end Provision
