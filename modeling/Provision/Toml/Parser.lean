import Provision.Toml.Scalar
import Provision.Toml.Table

namespace Provision.Toml

/-- Control characters other than the tab stand in no comment and no string. -/
def isVisible (c : Char) : Bool := c = '\t' || (0x20 ≤ c.toNat && c.toNat ≠ 0x7f)

def isSpace (c : Char) : Bool := c = ' ' || c = '\t'

def skipSpace (cs : List Char) : List Char := cs.dropWhile isSpace

def skipGap : Bool → List Char → List Char
  | _, '\n' :: r => skipGap false r
  | _, '\r' :: '\n' :: r => skipGap false r
  | true, c :: r => if isVisible c then skipGap true r else c :: r
  | false, c :: r =>
    if c = '#' then skipGap true r else if isSpace c then skipGap false r else c :: r
  | _, [] => []

def newline? : List Char → Option (List Char)
  | '\n' :: r => some r
  | '\r' :: '\n' :: r => some r
  | _ => none

def endOfLine? (cs : List Char) : Option (List Char) :=
  let rest := match skipSpace cs with
    | '#' :: r => r.dropWhile isVisible
    | r => r
  if rest.isEmpty then some [] else newline? rest

/-- So many hexadecimal digits that stand for a character. -/
def codePoint? (count : Nat) (cs : List Char) : Option (Char × List Char) :=
  let ds := cs.take count
  let n := valueIn 16 ds
  if ds.length = count && ds.all (digitIn 16) && (n < 0xd800 || (0xe000 ≤ n && n < 0x110000)) then
    some (Char.ofNat n, cs.drop count)
  else none

def escape? : List Char → Option (Char × List Char)
  | 'b' :: r => some ('\x08', r)
  | 't' :: r => some ('\t', r)
  | 'n' :: r => some ('\n', r)
  | 'f' :: r => some ('\x0c', r)
  | 'r' :: r => some ('\r', r)
  | 'e' :: r => some ('\x1b', r)
  | '"' :: r => some ('"', r)
  | '\\' :: r => some ('\\', r)
  | 'x' :: r => codePoint? 2 r
  | 'u' :: r => codePoint? 4 r
  | 'U' :: r => codePoint? 8 r
  | _ => none

def readBasic : Nat → List Char → Option (List Char × List Char)
  | 0, _ | _, [] => none
  | fuel + 1, c :: r =>
    if c = '"' then some ([], r)
    else if c = '\\' then do
      let (e, r) ← escape? r
      let (s, r) ← readBasic fuel r
      some (e :: s, r)
    else if isVisible c then (readBasic fuel r).map fun (s, r) => (c :: s, r)
    else none

def readLiteral (cs : List Char) : Option (List Char × List Char) :=
  let s := cs.takeWhile fun c => c != '\'' && isVisible c
  (expect? '\'' (cs.drop s.length)).map (s, ·)

/-- The quotes that belong to a text before the three that close it, and what follows. -/
def closing? (quote : Char) (cs : List Char) : Option (List Char × List Char) :=
  let quotes := (cs.take 5).takeWhile (· = quote)
  if 3 ≤ quotes.length then some (quotes.drop 3, cs.drop quotes.length) else none

def skipLines : List Char → List Char
  | '\n' :: r => skipLines r
  | '\r' :: '\n' :: r => skipLines r
  | c :: r => if isSpace c then skipLines r else c :: r
  | [] => []

/-- A string of several lines. A backslash at the end of a line joins it to the next text. -/
def readLong (quote : Char) : Nat → List Char → Option (List Char × List Char)
  | 0, _ | _, [] => none
  | fuel + 1, c :: r =>
    match closing? quote (c :: r) with
    | some (s, r) => some (s, r)
    | none =>
      if c = '\\' ∧ quote = '"' then
        match newline? (skipSpace r) with
        | some r => readLong quote fuel (skipLines r)
        | none => do
          let (e, r) ← escape? r
          let (s, r) ← readLong quote fuel r
          some (e :: s, r)
      else if isVisible c ∨ c = '\n' ∨ (c = '\r' ∧ r.head? = some '\n') then
        (readLong quote fuel r).map fun (s, r) => (c :: s, r)
      else none

def readLongFrom (quote : Char) (cs : List Char) : Option (List Char × List Char) :=
  readLong quote (cs.length + 1) ((newline? cs).getD cs)

def readString : List Char → Option (List Char × List Char)
  | '"' :: '"' :: '"' :: r => readLongFrom '"' r
  | '\'' :: '\'' :: '\'' :: r => readLongFrom '\'' r
  | '"' :: r => readBasic (r.length + 1) r
  | '\'' :: r => readLiteral r
  | _ => none

def isBare (c : Char) : Bool := c.isAlphanum || c = '_' || c = '-'

def readKeyPart : List Char → Option (String × List Char)
  | '"' :: r => (readBasic (r.length + 1) r).map fun (s, r) => (String.ofList s, r)
  | '\'' :: r => (readLiteral r).map fun (s, r) => (String.ofList s, r)
  | cs =>
    let word := cs.takeWhile isBare
    if word.isEmpty then none else some (String.ofList word, cs.drop word.length)

def readKey : Nat → List Char → Option (List String × List Char)
  | 0, _ => none
  | fuel + 1, cs => do
    let (part, r) ← readKeyPart (skipSpace cs)
    match skipSpace r with
    | '.' :: r => (readKey fuel r).map fun (parts, r) => (part :: parts, r)
    | r => some ([part], r)

def readKeyFrom (cs : List Char) : Option (List String × List Char) := readKey (cs.length + 1) cs

def isWordChar (c : Char) : Bool := isBare c || c = '+' || c = '.' || c = ':'

/-- A word; a date takes a time of day after one space to it. -/
def readWord (cs : List Char) : List Char × List Char :=
  let word := cs.takeWhile isWordChar
  let rest := cs.drop word.length
  match rest with
  | ' ' :: d :: _ =>
    if (date? word).any (·.2.isEmpty) && Source.isDigit d then
      let time := (rest.drop 1).takeWhile isWordChar
      (word ++ ' ' :: time, rest.drop (time.length + 1))
    else (word, rest)
  | _ => (word, rest)

def maxDepth : Nat := 80

mutual

def readValue : Nat → Nat → List Char → Option (Json × List Char)
  | 0, _, _ => none
  | fuel + 1, depth, cs =>
    match cs with
    | '[' :: r =>
      if depth = 0 then none
      else (readItems fuel (depth - 1) r).map fun (items, r) => (.array items, r)
    | '\x7b' :: r =>
      if depth = 0 then none
      else do
        let (body, r) ← readPairs fuel (depth - 1) r
        let v ← Entries.objectOf? body
        some (v, r)
    | '"' :: _ | '\'' :: _ => (readString cs).map fun (s, r) => (.string (String.ofList s), r)
    | cs =>
      let (word, r) := readWord cs
      (scalar? word).map (·, r)

def readItems : Nat → Nat → List Char → Option (List Json × List Char)
  | 0, _, _ => none
  | fuel + 1, depth, cs =>
    match skipGap false cs with
    | ']' :: r => some ([], r)
    | r => do
      let (v, r) ← readValue fuel depth r
      match skipGap false r with
      | ',' :: r => (readItems fuel depth r).map fun (vs, r) => (v :: vs, r)
      | ']' :: r => some ([v], r)
      | _ => none

def readPairs : Nat → Nat → List Char → Option (List (List String × Json) × List Char)
  | 0, _, _ => none
  | fuel + 1, depth, cs =>
    match skipGap false cs with
    | '\x7d' :: r => some ([], r)
    | r => do
      let (key, r) ← readKeyFrom r
      let r ← expect? '=' r
      let (v, r) ← readValue fuel depth (skipSpace r)
      match skipGap false r with
      | ',' :: r => (readPairs fuel depth r).map fun (ps, r) => ((key, v) :: ps, r)
      | '\x7d' :: r => some ([(key, v)], r)
      | _ => none

end

def readAssignment (cs : List Char) : Option ((List String × Json) × List Char) := do
  let (key, r) ← readKeyFrom cs
  let r ← expect? '=' r
  let (v, r) ← readValue (2 * r.length + 2) maxDepth (skipSpace r)
  let r ← endOfLine? r
  some ((key, v), r)

def readHeader (repeated : Bool) (cs : List Char) : Option (Section × List Char) := do
  let (parts, r) ← readKeyFrom cs
  let r ← expect? ']' r
  let r ← if repeated then expect? ']' r else some r
  let r ← endOfLine? r
  let key ← parts.getLast?
  some (⟨parts.dropLast, key, repeated, []⟩, r)

def Document.under (d : Document) (header : Section) : Document :=
  ⟨[], { header with body := d.body } :: d.sections⟩

def readDocument : Nat → List Char → Option Document
  | 0, _ => none
  | fuel + 1, cs =>
    match skipGap false cs with
    | [] => some ⟨[], []⟩
    | '[' :: '[' :: r => do
      let (header, r) ← readHeader true r
      (readDocument fuel r).map (·.under header)
    | '[' :: r => do
      let (header, r) ← readHeader false r
      (readDocument fuel r).map (·.under header)
    | r => do
      let (pair, r) ← readAssignment r
      let d ← readDocument fuel r
      some ⟨pair :: d.body, d.sections⟩

def dropMark : List Char → List Char
  | c :: r => if c.toNat = 0xfeff then r else c :: r
  | [] => []

def parse? (text : String) : Option Fields :=
  let cs := dropMark text.toList
  (readDocument (cs.length + 1) cs).bind Document.toFields?

end Provision.Toml
