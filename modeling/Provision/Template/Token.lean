import Provision.Json.Source
import Provision.Template.Expr

namespace Provision.Template

open Text (dropLead? isBlank trimStartChars trimEndChars splitFirstChars)

inductive Symbol where
  | plus
  | minus
  | star
  | power
  | slash
  | floorDiv
  | percent
  | tilde
  | pipe
  | dot
  | comma
  | colon
  | assign
  | equal
  | notEqual
  | less
  | lessEqual
  | greater
  | greaterEqual
  | openParen
  | closeParen
  | openBracket
  | closeBracket
  | openBrace
  | closeBrace
deriving DecidableEq, Repr

inductive Token where
  | ident (name : String)
  | text (value : String)
  | int (value : Nat)
  | float (value : Decimal.Binary64)
  | symbol (s : Symbol)
deriving DecidableEq, Repr

inductive Piece where
  | text (s : String)
  | expression (tokens : List Token)
  | statement (tokens : List Token)
deriving DecidableEq, Repr

def isSpace (c : Char) : Bool := c = ' ' || c = '\t' || c = '\n' || c = '\x0c' || c = '\r'

def isNameStart (c : Char) : Bool := c.isAlpha || c = '_'

def isNameChar (c : Char) : Bool := c.isAlphanum || c = '_'

def readQuoted (quote : Char) : List Char → Option (List Source.Piece × List Char)
  | [] => none
  | '\\' :: 'u' :: a :: b :: c :: d :: rest => do
    let a ← Source.hexValue? a
    let b ← Source.hexValue? b
    let c ← Source.hexValue? c
    let d ← Source.hexValue? d
    let (ps, r) ← readQuoted quote rest
    some (.unit (((a * 16 + b) * 16 + c) * 16 + d) :: ps, r)
  | '\\' :: e :: rest => do
    let c ← if e = '\'' then some '\'' else Source.simpleEscape? e
    let (ps, r) ← readQuoted quote rest
    some (.char c :: ps, r)
  | c :: rest =>
    if c = quote then some ([], rest)
    else (readQuoted quote rest).map fun (ps, r) => (.char c :: ps, r)

def readText (quote : Char) (cs : List Char) : Option (String × List Char) := do
  let (ps, r) ← readQuoted quote cs
  let text ← Source.joinPieces ps
  some (String.ofList text, r)

inductive NumberPart where
  | whole
  | radix (base : Nat)
  | fraction
  | exponent
  | exponentDigits
deriving DecidableEq

def NumberPart.next? (p : NumberPart) (c : Char) : Option NumberPart :=
  if c = '_' then some p
  else if c.isDigit then some (if p = .exponent then .exponentDigits else p)
  else
    match p with
    | .whole =>
      if c = '.' then some .fraction
      else if c = 'e' || c = 'E' then some .exponent
      else none
    | .fraction => if c = 'e' || c = 'E' then some .exponent else none
    | .exponent => if c = '+' || c = '-' then some .exponentDigits else none
    | .radix base => if base = 16 && (Source.hexValue? c).isSome then some p else none
    | .exponentDigits => none

def takeNumber (p : NumberPart) : List Char → List Char × NumberPart × List Char
  | [] => ([], p, [])
  | c :: rest =>
    match p.next? c with
    | some q =>
      let (cs, q, r) := takeNumber q rest
      (c :: cs, q, r)
    | none => ([], p, c :: rest)

def digitsValue? (base : Nat) (cs : List Char) : Option Nat :=
  if cs.isEmpty then none
  else cs.foldl (fun acc c => do
    let n ← acc
    let d ← Source.hexValue? c
    if d < base then some (n * base + d) else none) (some 0)

def floatValue? (cs : List Char) : Option Decimal.Binary64 := do
  let whole := cs.takeWhile Char.isDigit
  let rest := cs.dropWhile Char.isDigit
  let fraction := if rest.head? = some '.' then (rest.drop 1).takeWhile Char.isDigit else []
  let rest := if rest.head? = some '.' then (rest.drop 1).dropWhile Char.isDigit else rest
  let sign := (rest.drop 1).head?
  let digits := if sign = some '+' || sign = some '-' then rest.drop 2 else rest.drop 1
  let power ← if rest.isEmpty then some 0 else digitsValue? 10 digits
  let m ← digitsValue? 10 (whole ++ fraction)
  let e : Int := if sign = some '-' then -(power : Int) else power
  some (Decimal.ofDecimal m (e - fraction.length))

def wholeToken? (n : Option Nat) : Option Token :=
  (n.filter (· < Nat.pow 2 128)).map .int

def readNumber (cs : List Char) : Option (Token × List Char) := do
  let (base, skipped) : Nat × Nat := match cs with
    | '0' :: c :: _ =>
      if c = 'x' || c = 'X' then (16, 2)
      else if c = 'o' || c = 'O' then (8, 2)
      else if c = 'b' || c = 'B' then (2, 2)
      else (10, 0)
    | _ => (10, 0)
  let (text, part, rest) := takeNumber (if base = 10 then .whole else .radix base) (cs.drop skipped)
  if text.getLast? = some '_' then none
  else do
    let digits := text.filter (· ≠ '_')
    let token ← match part with
      | .whole | .radix _ => wholeToken? (digitsValue? base digits)
      | _ => (floatValue? digits).map .float
    some (token, rest)

def readSymbol : List Char → Option (Symbol × List Char)
  | '/' :: '/' :: r => some (.floorDiv, r)
  | '*' :: '*' :: r => some (.power, r)
  | '=' :: '=' :: r => some (.equal, r)
  | '!' :: '=' :: r => some (.notEqual, r)
  | '>' :: '=' :: r => some (.greaterEqual, r)
  | '<' :: '=' :: r => some (.lessEqual, r)
  | '+' :: r => some (.plus, r)
  | '-' :: r => some (.minus, r)
  | '*' :: r => some (.star, r)
  | '/' :: r => some (.slash, r)
  | '%' :: r => some (.percent, r)
  | '~' :: r => some (.tilde, r)
  | '|' :: r => some (.pipe, r)
  | '.' :: r => some (.dot, r)
  | ',' :: r => some (.comma, r)
  | ':' :: r => some (.colon, r)
  | '=' :: r => some (.assign, r)
  | '<' :: r => some (.less, r)
  | '>' :: r => some (.greater, r)
  | '(' :: r => some (.openParen, r)
  | ')' :: r => some (.closeParen, r)
  | '[' :: r => some (.openBracket, r)
  | ']' :: r => some (.closeBracket, r)
  | '\x7b' :: r => some (.openBrace, r)
  | '\x7d' :: r => some (.closeBrace, r)
  | _ => none

def readToken : List Char → Option (Token × List Char)
  | '"' :: r => (readText '"' r).map fun (s, r) => (.text s, r)
  | '\'' :: r => (readText '\'' r).map fun (s, r) => (.text s, r)
  | c :: r =>
    if c.isDigit then readNumber (c :: r)
    else if isNameStart c then
      some (.ident (String.ofList ((c :: r).takeWhile isNameChar)), (c :: r).dropWhile isNameChar)
    else (readSymbol (c :: r)).map fun (s, r) => (.symbol s, r)
  | [] => none

def Token.depth (depth : Nat) : Token → Nat
  | .symbol .openParen | .symbol .openBracket | .symbol .openBrace => depth + 1
  | .symbol .closeParen | .symbol .closeBracket | .symbol .closeBrace => depth - 1
  | _ => depth

inductive Closing where
  | expression
  | statement
deriving DecidableEq

def Closing.match? : Closing → List Char → Option (Bool × List Char)
  | .expression, '-' :: '\x7d' :: '\x7d' :: r => some (true, r)
  | .expression, '\x7d' :: '\x7d' :: r => some (false, r)
  | .statement, '-' :: '%' :: '\x7d' :: r => some (true, r)
  | .statement, '+' :: '%' :: '\x7d' :: r => some (false, r)
  | .statement, '%' :: '\x7d' :: r => some (false, r)
  | _, _ => none

structure Tokens where
  tokens : List Token
  trimAfter : Bool
  rest : List Char

/-- The tokens up to the closing marker. A marker inside brackets is not one. -/
def scanTokens (closing : Closing) : Nat → Nat → List Char → Except Failure Tokens
  | 0, _, _ => .error (.malformed "unexpected end of input")
  | fuel + 1, depth, cs =>
    let cs := cs.dropWhile isSpace
    match if depth = 0 then closing.match? cs else none with
    | some (trimAfter, rest) => .ok ⟨[], trimAfter, rest⟩
    | none =>
      match readToken cs with
      | none => .error (.malformed "unexpected character or end of input")
      | some (t, rest) => do
        let more ← scanTokens closing fuel (t.depth depth) rest
        .ok { more with tokens := t :: more.tokens }

def scanAll : Nat → List Char → Except Failure (List Token)
  | 0, _ => .error (.malformed "unexpected end of input")
  | fuel + 1, cs =>
    match cs.dropWhile isSpace with
    | [] => .ok []
    | cs =>
      match readToken cs with
      | none => .error (.malformed "unexpected character")
      | some (t, rest) => do
        let more ← scanAll fuel rest
        .ok (t :: more)

inductive Marker where
  | expression
  | statement
  | comment
deriving DecidableEq, Repr

def marker? : List Char → Option (Marker × List Char)
  | '\x7b' :: '\x7b' :: r => some (.expression, r)
  | '\x7b' :: '%' :: r => some (.statement, r)
  | '\x7b' :: '#' :: r => some (.comment, r)
  | _ => none

def findMarker : List Char → Option (List Char × Marker × List Char)
  | [] => none
  | c :: cs =>
    match marker? (c :: cs) with
    | some (m, r) => some ([], m, r)
    | none => (findMarker cs).map fun (lead, m, r) => (c :: lead, m, r)

/-- A sign right after an opening marker: whether it drops the blanks before the marker. -/
def openingSign : List Char → Bool × List Char
  | '-' :: r => (true, r)
  | '+' :: r => (false, r)
  | r => (false, r)

def wordStatement? (word : List Char) (cs : List Char) : Option (Bool × List Char) := do
  let r ← dropLead? word (cs.dropWhile isSpace)
  Closing.match? .statement (r.dropWhile isSpace)

/-- A verbatim section: its text, whether blanks go before and after its end, and the rest. -/
structure Verbatim where
  body : List Char
  trimBefore : Bool
  trimAfter : Bool
  rest : List Char

def endVerbatim? : List Char → Option Verbatim
  | [] => none
  | c :: cs =>
    let here : Option Verbatim := match c :: cs with
      | '\x7b' :: '%' :: r =>
        let (trimBefore, r) := openingSign r
        (wordStatement? "endraw".toList r).map fun (trimAfter, rest) => ⟨[], trimBefore, trimAfter, rest⟩
      | _ => none
    match here with
    | some v => some v
    | none => (endVerbatim? cs).map fun v => { v with body := c :: v.body }

def textPiece (cs : List Char) : List Piece := if cs.isEmpty then [] else [.text (String.ofList cs)]

/-- The pieces of a template. Each round reads past a marker, so the length of the text bounds
their number. -/
def scanPieces : Nat → Bool → List Char → Except Failure (List Piece)
  | 0, _, _ => .ok []
  | fuel + 1, trim, cs =>
    let cs := if trim then trimStartChars cs else cs
    match findMarker cs with
    | none => .ok (textPiece cs)
    | some (lead, marker, rest) => do
      let (trimBefore, rest) := openingSign rest
      let lead := textPiece (if trimBefore then trimEndChars lead else lead)
      match marker with
      | .comment =>
        match splitFirstChars ['#', '\x7d'] rest with
        | none => .error (.malformed "unexpected end of comment")
        | some (comment, rest) => do
          let more ← scanPieces fuel (comment.getLast? = some '-') rest
          .ok (lead ++ more)
      | .expression => do
        let scanned ← scanTokens .expression (rest.length + 1) 0 rest
        let more ← scanPieces fuel scanned.trimAfter scanned.rest
        .ok (lead ++ .expression scanned.tokens :: more)
      | .statement =>
        match wordStatement? "raw".toList rest with
        | some (trimStart, rest) =>
          match endVerbatim? rest with
          | none => .error (.malformed "unexpected end of raw block")
          | some v => do
            let body := if trimStart then trimStartChars v.body else v.body
            let body := if v.trimBefore then trimEndChars body else body
            let more ← scanPieces fuel v.trimAfter v.rest
            .ok (lead ++ textPiece body ++ more)
        | none => do
          let scanned ← scanTokens .statement (rest.length + 1) 0 rest
          let more ← scanPieces fuel scanned.trimAfter scanned.rest
          .ok (lead ++ .statement scanned.tokens :: more)

def Piece.scan (cs : List Char) : Except Failure (List Piece) := scanPieces (cs.length + 1) false cs

end Provision.Template
