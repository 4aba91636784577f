import Provision.Json.Source
import Provision.Text.Quoted

namespace Provision.Toml

def ungroup? (isDigit : Char → Bool) : List Char → Option (List Char)
  | [] => none
  | [c] => if isDigit c then some [c] else none
  | c :: '_' :: rest => if isDigit c then (ungroup? isDigit rest).map (c :: ·) else none
  | c :: rest => if isDigit c then (ungroup? isDigit rest).map (c :: ·) else none

def wholeDigits? (cs : List Char) : Option (List Char) :=
  (ungroup? Source.isDigit cs).filter fun ds => ds.length = 1 || ds.head? != some '0'

def valueIn (base : Nat) (digits : List Char) : Nat :=
  digits.foldl (fun n c => n * base + (Source.hexValue? c).getD 0) 0

def splitSign : List Char → Bool × List Char
  | '+' :: cs => (false, cs)
  | '-' :: cs => (true, cs)
  | cs => (false, cs)

def digitIn (base : Nat) (c : Char) : Bool := (Source.hexValue? c).any (· < base)

def integer? (cs : List Char) : Option Int := do
  let n ← match cs with
    | '0' :: 'x' :: ds => (ungroup? (digitIn 16) ds).map fun ds => (valueIn 16 ds : Int)
    | '0' :: 'o' :: ds => (ungroup? (digitIn 8) ds).map fun ds => (valueIn 8 ds : Int)
    | '0' :: 'b' :: ds => (ungroup? (digitIn 2) ds).map fun ds => (valueIn 2 ds : Int)
    | cs =>
      let (negative, ds) := splitSign cs
      (wholeDigits? ds).map fun ds =>
        if negative then -(valueIn 10 ds : Int) else (valueIn 10 ds : Int)
  if -0x8000000000000000 ≤ n ∧ n < 0x8000000000000000 then some n else none

def splitFraction : List Char → Option (List Char × List Char)
  | '.' :: cs =>
    let part := cs.takeWhile fun c => c != 'e' && c != 'E'
    (ungroup? Source.isDigit part).map fun ds => (ds, cs.drop part.length)
  | cs => some ([], cs)

def exponent? : List Char → Option Int
  | [] => some 0
  | c :: cs =>
    if c = 'e' ∨ c = 'E' then
      let (negative, ds) := splitSign cs
      (ungroup? Source.isDigit ds).map fun ds =>
        if negative then -(valueIn 10 ds : Int) else (valueIn 10 ds : Int)
    else none

def isDoubleMark (c : Char) : Bool := c == '.' || c == 'e' || c == 'E'

def finite? (cs : List Char) : Option Decimal.Binary64 := do
  let (negative, cs) := splitSign cs
  if !cs.any isDoubleMark then none
  let part := cs.takeWhile (!isDoubleMark ·)
  let whole ← wholeDigits? part
  let (fraction, rest) ← splitFraction (cs.drop part.length)
  let exponent ← exponent? rest
  let x := Decimal.ofDecimal (valueIn 10 (whole ++ fraction)) (exponent - fraction.length)
  if x.isFinite then some (if negative then x.neg else x) else none

/-- A double that is not finite has no counterpart in JSON and stands for null. -/
def isInfiniteOrNaN (cs : List Char) : Bool :=
  let word := (splitSign cs).2
  word = ['i', 'n', 'f'] || word = ['n', 'a', 'n']

def fixed? (count : Nat) (cs : List Char) : Option (Nat × List Char) :=
  let ds := cs.take count
  if ds.length = count && ds.all Source.isDigit then some (valueIn 10 ds, cs.drop count) else none

def expect? (c : Char) : List Char → Option (List Char)
  | d :: cs => if d = c then some cs else none
  | [] => none

def isLeapYear (year : Nat) : Bool := year % 4 = 0 && (year % 100 != 0 || year % 400 = 0)

def daysIn (year month : Nat) : Nat :=
  if month = 2 then (if isLeapYear year then 29 else 28)
  else if month = 4 ∨ month = 6 ∨ month = 9 ∨ month = 11 then 30
  else 31

def date? (cs : List Char) : Option (List Char × List Char) := do
  let (year, r) ← fixed? 4 cs
  let r ← expect? '-' r
  let (month, r) ← fixed? 2 r
  let r ← expect? '-' r
  let (day, r) ← fixed? 2 r
  if 1 ≤ month ∧ month ≤ 12 ∧ 1 ≤ day ∧ day ≤ daysIn year month then some (cs.take 10, r) else none

/-- The fraction of a second: nine digits at most, without the zeros at the end. -/
def secondFraction (digits : List Char) : List Char :=
  let kept := ((digits.take 9).reverse.dropWhile (· = '0')).reverse
  if kept.isEmpty then ['0'] else kept

def time? (cs : List Char) : Option (List Char × List Char) := do
  let (hour, r) ← fixed? 2 cs
  let r ← expect? ':' r
  let (minute, r) ← fixed? 2 r
  if hour ≤ 23 ∧ minute ≤ 59 then
    match r with
    | ':' :: r => do
      let (second, r) ← fixed? 2 r
      if second ≤ 60 then
        match r with
        | '.' :: r =>
          let ds := r.takeWhile Source.isDigit
          if ds.isEmpty then none
          else some (cs.take 8 ++ '.' :: secondFraction ds, r.dropWhile Source.isDigit)
        | r => some (cs.take 8, r)
      else none
    | r => some (cs.take 5, r)
  else none

def offset? : List Char → Option (List Char)
  | [] => some []
  | c :: r =>
    if (c = 'Z' ∨ c = 'z') ∧ r = [] then some ['Z']
    else if c = '+' ∨ c = '-' then do
      let (hour, rest) ← fixed? 2 r
      let rest ← expect? ':' rest
      let (minute, rest) ← fixed? 2 rest
      if hour ≤ 23 ∧ minute ≤ 59 ∧ rest = [] then
        some ((if hour = 0 ∧ minute = 0 then '+' else c) :: r)
      else none
    else none

/-- The normal form of a date, a time, or both. -/
def moment? (cs : List Char) : Option (List Char) :=
  match date? cs with
  | some (date, []) => some date
  | some (date, c :: r) =>
    if c = 'T' ∨ c = 't' ∨ c = ' ' then do
      let (time, r) ← time? r
      let offset ← offset? r
      some (date ++ 'T' :: time ++ offset)
    else none
  | none => match time? cs with
    | some (time, []) => some time
    | _ => none

def momentKey : String := "$__toml_private_datetime"

def scalar? (cs : List Char) : Option Json :=
  if cs = ['t', 'r', 'u', 'e'] then some (.bool true)
  else if cs = ['f', 'a', 'l', 's', 'e'] then some (.bool false)
  else if isInfiniteOrNaN cs then some .null
  else match integer? cs with
    | some n => some (.int n)
    | none => match finite? cs with
      | some x => some (.double x)
      | none => (moment? cs).map fun m => .object [(momentKey, .string (String.ofList m))]

end Provision.Toml
