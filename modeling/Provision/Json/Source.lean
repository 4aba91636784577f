import Provision.Json.Basic
import Provision.Text.Split

namespace Provision

open Decimal (Binary64)

/-- JSON text whose grammar is right. A string is absent if a surrogate in it has no partner. -/
inductive Source where
  | null
  | bool (value : Bool)
  | number (text : List Char)
  | string (value : Option String)
  | array (items : List Source)
  | object (fields : List (Option String × Source))
deriving Inhabited

namespace Source

def isSpace (c : Char) : Bool := c = ' ' || c = '\t' || c = '\n' || c = '\r'

def skip (cs : List Char) : List Char := cs.dropWhile isSpace

inductive Piece where
  | char (c : Char)
  | unit (n : Nat)

def hexValue? (c : Char) : Option Nat :=
  if '0' ≤ c && c ≤ '9' then some (c.toNat - 48)
  else if 'a' ≤ c && c ≤ 'f' then some (c.toNat - 87)
  else if 'A' ≤ c && c ≤ 'F' then some (c.toNat - 55)
  else none

def simpleEscape? : Char → Option Char
  | '"' => some '"'
  | '\\' => some '\\'
  | '/' => some '/'
  | 'b' => some '\x08'
  | 'f' => some '\x0c'
  | 'n' => some '\n'
  | 'r' => some '\r'
  | 't' => some '\t'
  | _ => none

def readPieces : List Char → Option (List Piece × List Char)
  | [] => none
  | '"' :: rest => some ([], rest)
  | '\\' :: 'u' :: a :: b :: c :: d :: rest => do
    let a ← hexValue? a
    let b ← hexValue? b
    let c ← hexValue? c
    let d ← hexValue? d
    let (ps, r) ← readPieces rest
    some (.unit (((a * 16 + b) * 16 + c) * 16 + d) :: ps, r)
  | '\\' :: e :: rest => do
    let c ← simpleEscape? e
    let (ps, r) ← readPieces rest
    some (.char c :: ps, r)
  | c :: rest =>
    if c.toNat < 0x20 || c = '\\' then none
    else (readPieces rest).map fun (ps, r) => (.char c :: ps, r)

/-- The text of the pieces; a surrogate needs its partner right after it. -/
def joinPieces : List Piece → Option (List Char)
  | [] => some []
  | .char c :: rest => (joinPieces rest).map (c :: ·)
  | .unit n :: .unit m :: rest =>
    if 0xd800 ≤ n && n < 0xdc00 then
      if 0xdc00 ≤ m && m < 0xe000 then
        (joinPieces rest).map (Char.ofNat (0x10000 + (n - 0xd800) * 0x400 + (m - 0xdc00)) :: ·)
      else none
    else if 0xdc00 ≤ n && n < 0xe000 then none
    else (joinPieces (.unit m :: rest)).map (Char.ofNat n :: ·)
  | .unit n :: rest =>
    if 0xd800 ≤ n && n < 0xe000 then none else (joinPieces rest).map (Char.ofNat n :: ·)

def readString (cs : List Char) : Option (Option String × List Char) :=
  (readPieces cs).map fun (ps, r) => ((joinPieces ps).map String.ofList, r)

def isDigit (c : Char) : Bool := '0' ≤ c && c ≤ '9'

def readDigits (cs : List Char) : Option (List Char × List Char) :=
  let ds := cs.takeWhile isDigit
  if ds.isEmpty then none else some (ds, cs.dropWhile isDigit)

def readWhole : List Char → Option (List Char × List Char)
  | '0' :: rest => some (['0'], rest)
  | cs => readDigits cs

def readFraction : List Char → Option (List Char × List Char)
  | '.' :: rest => (readDigits rest).map fun (ds, r) => ('.' :: ds, r)
  | cs => some ([], cs)

def readExponent : List Char → Option (List Char × List Char)
  | c :: rest =>
    if c = 'e' || c = 'E' then
      match rest with
      | s :: more =>
        if s = '+' || s = '-' then (readDigits more).map fun (ds, r) => (c :: s :: ds, r)
        else (readDigits rest).map fun (ds, r) => (c :: ds, r)
      | [] => none
    else some ([], c :: rest)
  | [] => some ([], [])

def readUnsigned (cs : List Char) : Option (List Char × List Char) := do
  let (whole, cs) ← readWhole cs
  let (frac, cs) ← readFraction cs
  let (exp, cs) ← readExponent cs
  some (whole ++ frac ++ exp, cs)

def readNumber : List Char → Option (List Char × List Char)
  | '-' :: rest => (readUnsigned rest).map fun (t, r) => ('-' :: t, r)
  | cs => readUnsigned cs

mutual

def readValue : Nat → List Char → Option (Source × List Char)
  | 0, _ => none
  | fuel + 1, cs =>
    match skip cs with
    | 'n' :: 'u' :: 'l' :: 'l' :: r => some (.null, r)
    | 't' :: 'r' :: 'u' :: 'e' :: r => some (.bool true, r)
    | 'f' :: 'a' :: 'l' :: 's' :: 'e' :: r => some (.bool false, r)
    | '"' :: r => (readString r).map fun (s, r) => (.string s, r)
    | '[' :: r =>
      match skip r with
      | ']' :: r => some (.array [], r)
      | r => (readItems fuel r).map fun (items, r) => (.array items, r)
    | '\x7b' :: r =>
      match skip r with
      | '\x7d' :: r => some (.object [], r)
      | r => (readFields fuel r).map fun (fields, r) => (.object fields, r)
    | r => (readNumber r).map fun (t, r) => (.number t, r)

def readItems : Nat → List Char → Option (List Source × List Char)
  | 0, _ => none
  | fuel + 1, cs =>
    match readValue fuel cs with
    | none => none
    | some (v, r) =>
      match skip r with
      | ',' :: r => (readItems fuel r).map fun (vs, r) => (v :: vs, r)
      | ']' :: r => some ([v], r)
      | _ => none

def readFields : Nat → List Char → Option (List (Option String × Source) × List Char)
  | 0, _ => none
  | fuel + 1, cs =>
    match skip cs with
    | '"' :: r =>
      match readString r with
      | none => none
      | some (k, r) =>
        match skip r with
        | ':' :: r =>
          match readValue fuel r with
          | none => none
          | some (v, r) =>
            match skip r with
            | ',' :: r => (readFields fuel r).map fun (fs, r) => ((k, v) :: fs, r)
            | '\x7d' :: r => some ([(k, v)], r)
            | _ => none
        | _ => none
    | _ => none

end

/-- Reads a text that is one JSON value and blanks. Every nested reading consumes a character,
so the length of the text bounds the recursion. -/
def read? (s : String) : Option Source :=
  let cs := s.toList
  match readValue (2 * cs.length + 2) cs with
  | some (v, r) => if (skip r).isEmpty then some v else none
  | none => none

/-- The product or quotient of a whole number and a power of ten, in double arithmetic; none
where it overflows. Powers below 10^-308 are divided out in steps. -/
def scale? (significand : Nat) (exponent : Int) : Option Float :=
  let power (k : Nat) : Float := (Decimal.ofDecimal 1 k).toFloat
  let rec go : Nat → Float → Int → Option Float
    | 0, f, _ => some f
    | n + 1, f, e =>
      if 0 ≤ e then
        if e ≤ 308 then
          let r := f * power e.toNat
          if r.isInf then none else some r
        else if f == 0.0 then some f
        else none
      else if -308 ≤ e then some (f / power (-e).toNat)
      else if f == 0.0 then some f
      else go n (f / power 308) (e + 308)
  go 8 (Binary64.ofNat significand).toFloat exponent

/-- Digits are taken into the significand while it fits 64 bits; the count of those left over. -/
def takeSignificand : Nat → List Char → Nat × List Char
  | n, [] => (n, [])
  | n, c :: cs =>
    let m := n * 10 + (c.toNat - 48)
    if m < 0x10000000000000000 then takeSignificand m cs else (n, c :: cs)

/-- The value of a number as written: whole numbers that fit 64 bits stay whole, `-0` excepted. -/
def numberValue? (text : List Char) : Option Number :=
  let negative := text.head? == some '-'
  let text := if negative then text.drop 1 else text
  let whole := text.takeWhile isDigit
  let rest := text.dropWhile isDigit
  let fraction := if rest.head? == some '.' then (rest.drop 1).takeWhile isDigit else []
  let rest := if rest.head? == some '.' then (rest.drop 1).dropWhile isDigit else rest
  let (n, left) := takeSignificand 0 whole
  if left.isEmpty && fraction.isEmpty && rest.isEmpty &&
      (!negative || (n ≠ 0 && n ≤ 0x8000000000000000)) then
    some (.int (if negative then -(n : Int) else n))
  else
    let (m, unused) := takeSignificand n fraction
    let base : Int := (left.length : Int) - ((fraction.length - unused.length : Nat) : Int)
    let digits := (rest.drop 1).dropWhile fun c => c = '+' || c = '-'
    let down := (rest.drop 1).head? == some '-'
    let power := (digits.foldl (fun (n : Nat) c => n * 10 + (c.toNat - 48)) 0)
    let limit : Nat := 0x80000000
    let value : Option Float :=
      if power ≥ limit then (if m ≠ 0 && !down then none else some 0.0)
      else scale? m (if down then base - power else base + power)
    value.map fun f => .double (.ofFloat (if negative then -f else f))

mutual

def toJson? : Nat → Source → Option Json
  | _, .null => some .null
  | _, .bool b => some (.bool b)
  | _, .number t => (numberValue? t).map .number
  | _, .string s => s.map .string
  | depth, .array items =>
    match depth with
    | 0 => none
    | depth + 1 => (itemsToJson? depth items).map .array
  | depth, .object fields =>
    match depth with
    | 0 => none
    | depth + 1 => (fieldsToJson? depth fields).map fun fs => .object (Fields.ofEntries fs)

def itemsToJson? : Nat → List Source → Option (List Json)
  | _, [] => some []
  | depth, v :: rest => do
    let v ← toJson? depth v
    let rest ← itemsToJson? depth rest
    some (v :: rest)

def fieldsToJson? : Nat → List (Option String × Source) → Option (List (String × Json))
  | _, [] => some []
  | depth, (k, v) :: rest => do
    let k ← k
    let v ← toJson? depth v
    let rest ← fieldsToJson? depth rest
    some ((k, v) :: rest)

end

def maxDepth : Nat := 127

end Source

def Json.parse? (s : String) : Option Json := (Source.read? s).bind (Source.toJson? Source.maxDepth)

end Provision
