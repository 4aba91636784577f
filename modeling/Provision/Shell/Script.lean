import Provision.Text.Split

namespace Provision.Shell

inductive Reference where
  | named (name : String)
  | status
  | process
deriving DecidableEq, Repr

/-- Text counts as it is; a reference outside quotes is cut into fields. -/
inductive Part where
  | text (s : String)
  | reference (r : Reference) (quoted : Bool)
deriving DecidableEq, Repr

abbrev Word := List Part

inductive Redirection where
  | output (stream : Nat) (append : Bool) (target : Word)
  | input (source : Word)
  | same (stream other : Nat)
deriving DecidableEq, Repr

structure SimpleCommand where
  assignments : List (String × Word) := []
  words : List Word := []
  redirections : List Redirection := []
deriving DecidableEq, Repr, Inhabited

inductive Script where
  | command (c : SimpleCommand)
  | pipe (first second : Script)
  | both (first second : Script)
  | either (first second : Script)
  | sequence (first second : Script)
  | negation (s : Script)
  | subshell (s : Script)
deriving Repr, Inhabited

inductive Operator where
  | sequence
  | both
  | either
  | pipe
  | opening
  | closing
deriving DecidableEq, Repr

inductive Arrow where
  | output
  | append
  | input
  | same
deriving DecidableEq, Repr

inductive Token where
  | word (w : Word)
  | operator (op : Operator)
  | redirect (stream : Option Nat) (arrow : Arrow)
deriving DecidableEq, Repr

def isSeparator (c : Char) : Bool := " \t\n;&|()<>".toList.contains c

def isNameStart (c : Char) : Bool := c.isAlpha || c = '_'

def isNameChar (c : Char) : Bool := c.isAlphanum || c = '_'

/-- A reference, its dollar sign read already; a dollar sign that starts none is text. -/
def readReference (quoted : Bool) : List Char → Option (Part × List Char)
  | '(' :: _ => none
  | '\x7b' :: r =>
    let name := r.takeWhile isNameChar
    match r.drop name.length with
    | '\x7d' :: r => if name.isEmpty then none else some (.reference (.named (String.ofList name)) quoted, r)
    | _ => none
  | '?' :: r => some (.reference .status quoted, r)
  | '$' :: r => some (.reference .process quoted, r)
  | c :: r =>
    if isNameStart c then
      let name := c :: r.takeWhile isNameChar
      some (.reference (.named (String.ofList name)) quoted, (c :: r).drop name.length)
    else if c.isDigit || "@*#!-".toList.contains c then
      some (.reference (.named (String.ofList [c])) quoted, r)
    else some (.text "$", c :: r)
  | [] => some (.text "$", [])

def readDoubleQuoted : Nat → List Char → Option (List Part × List Char)
  | 0, _ | _, [] => none
  | fuel + 1, c :: r =>
    if c = '"' then some ([.text ""], r)
    else if c = '\\' then
      match r with
      | '\n' :: r => readDoubleQuoted fuel r
      | d :: r =>
        let text := if "$`\"\\".toList.contains d then [d] else ['\\', d]
        (readDoubleQuoted fuel r).map fun (ps, r) => (.text (String.ofList text) :: ps, r)
      | [] => none
    else if c = '`' then none
    else if c = '$' then do
      let (p, r) ← readReference true r
      let (ps, r) ← readDoubleQuoted fuel r
      some (p :: ps, r)
    else (readDoubleQuoted fuel r).map fun (ps, r) => (.text (String.ofList [c]) :: ps, r)

def readWord : Nat → List Char → Option (List Part × List Char)
  | 0, _ => none
  | _, [] => some ([], [])
  | fuel + 1, c :: r =>
    if isSeparator c then some ([], c :: r)
    else if c = '\'' then do
      let s := r.takeWhile (· != '\'')
      match r.drop s.length with
      | _ :: r => (readWord fuel r).map fun (ps, r) => (.text (String.ofList s) :: ps, r)
      | [] => none
    else if c = '"' then do
      let (quoted, r) ← readDoubleQuoted fuel r
      let (ps, r) ← readWord fuel r
      some (quoted ++ ps, r)
    else if c = '\\' then
      match r with
      | '\n' :: r => readWord fuel r
      | d :: r => (readWord fuel r).map fun (ps, r) => (.text (String.ofList [d]) :: ps, r)
      | [] => some ([.text "\\"], [])
    else if c = '`' then none
    else if c = '$' then do
      let (p, r) ← readReference false r
      let (ps, r) ← readWord fuel r
      some (p :: ps, r)
    else (readWord fuel r).map fun (ps, r) => (.text (String.ofList [c]) :: ps, r)

def readArrow : List Char → Option (Arrow × List Char)
  | '>' :: '>' :: r => some (.append, r)
  | '>' :: '&' :: r => some (.same, r)
  | '>' :: r => some (.output, r)
  | '<' :: '<' :: _ => none
  | '<' :: r => some (.input, r)
  | _ => none

def readOperator : List Char → Option (Operator × List Char)
  | '&' :: '&' :: r => some (.both, r)
  | '|' :: '|' :: r => some (.either, r)
  | '|' :: r => some (.pipe, r)
  | ';' :: r => some (.sequence, r)
  | '\n' :: r => some (.sequence, r)
  | '(' :: r => some (.opening, r)
  | ')' :: r => some (.closing, r)
  | _ => none

def readTokens : Nat → List Char → Option (List Token)
  | 0, _ => none
  | _, [] => some []
  | fuel + 1, c :: r =>
    if c = ' ' || c = '\t' then readTokens fuel r
    else if c = '#' then readTokens fuel (r.dropWhile (· != '\n'))
    else if c = '<' || c = '>' then do
      let (a, r) ← readArrow (c :: r)
      (readTokens fuel r).map (.redirect none a :: ·)
    else if isSeparator c then do
      let (op, r) ← readOperator (c :: r)
      (readTokens fuel r).map (.operator op :: ·)
    else
      match readArrow r with
      | some (a, rest) =>
        if c.isDigit then (readTokens fuel rest).map (.redirect (some (c.toNat - 48)) a :: ·)
        else word fuel (c :: r)
      | none => word fuel (c :: r)
where
  word (fuel : Nat) (cs : List Char) : Option (List Token) := do
    let (parts, r) ← readWord (cs.length + 1) cs
    (readTokens fuel r).map (.word parts :: ·)

def plainText? (w : Word) : Option String :=
  (w.mapM fun | Part.text s => some s | Part.reference .. => none).map String.join

def assignment? (w : Word) : Option (String × Word) :=
  let lead := w.takeWhile fun | .text s => s != "=" | .reference .. => false
  match plainText? lead, w.drop lead.length with
  | some name, _ :: value =>
    let cs := name.toList
    if cs.head?.any isNameStart && cs.all isNameChar then some (name, value) else none
  | _, _ => none

def reservedWords : List String :=
  ["if", "then", "else", "elif", "fi", "for", "while", "until", "do", "done", "case", "esac",
    "\x7b", "\x7d", "function"]

def isReserved (w : Word) : Bool := (plainText? w).any reservedWords.contains

def parseSimple : List Token → SimpleCommand → Option (SimpleCommand × List Token)
  | .word w :: rest, c =>
    if c.words.isEmpty then
      if isReserved w then none
      else match assignment? w with
        | some a => parseSimple rest { c with assignments := c.assignments ++ [a] }
        | none => parseSimple rest { c with words := [w] }
    else parseSimple rest { c with words := c.words ++ [w] }
  | .redirect stream arrow :: .word w :: rest, c =>
    match arrow with
    | .output => parseSimple rest { c with redirections := c.redirections ++ [.output (stream.getD 1) false w] }
    | .append => parseSimple rest { c with redirections := c.redirections ++ [.output (stream.getD 1) true w] }
    | .input => parseSimple rest { c with redirections := c.redirections ++ [.input w] }
    | .same =>
      match plainText? w with
      | some "1" => parseSimple rest { c with redirections := c.redirections ++ [.same (stream.getD 1) 1] }
      | some "2" => parseSimple rest { c with redirections := c.redirections ++ [.same (stream.getD 1) 2] }
      | _ => none
  | .redirect .. :: _, _ => none
  | rest, c =>
    if c.words.isEmpty && c.assignments.isEmpty && c.redirections.isEmpty then none else some (c, rest)

def skipLineEnds : List Token → List Token
  | .operator .sequence :: rest => skipLineEnds rest
  | rest => rest

mutual

def parseCommand : Nat → List Token → Option (Script × List Token)
  | 0, _ => none
  | fuel + 1, ts =>
    match ts with
    | .operator .opening :: rest => do
      let (s, rest) ← parseSequence fuel rest
      match rest with
      | .operator .closing :: rest => some (.subshell s, rest)
      | _ => none
    | .word w :: rest =>
      if plainText? w = some "!" then (parseCommand fuel rest).map fun (s, r) => (.negation s, r)
      else (parseSimple ts {}).map fun (c, r) => (.command c, r)
    | _ => (parseSimple ts {}).map fun (c, r) => (.command c, r)

def parsePipes : Nat → Script → List Token → Option (Script × List Token)
  | 0, _, _ => none
  | fuel + 1, s, ts =>
    match ts with
    | .operator .pipe :: rest => do
      let (next, rest) ← parseCommand fuel (skipLineEnds rest)
      parsePipes fuel (.pipe s next) rest
    | _ => some (s, ts)

def parseChoices : Nat → Script → List Token → Option (Script × List Token)
  | 0, _, _ => none
  | fuel + 1, s, ts =>
    match ts with
    | .operator .both :: rest => do
      let (next, rest) ← parsePipeline fuel (skipLineEnds rest)
      parseChoices fuel (.both s next) rest
    | .operator .either :: rest => do
      let (next, rest) ← parsePipeline fuel (skipLineEnds rest)
      parseChoices fuel (.either s next) rest
    | _ => some (s, ts)

def parsePipeline : Nat → List Token → Option (Script × List Token)
  | 0, _ => none
  | fuel + 1, ts => do
    let (s, rest) ← parseCommand fuel ts
    parsePipes fuel s rest

def parseSequence : Nat → List Token → Option (Script × List Token)
  | 0, _ => none
  | fuel + 1, ts => do
    let (s, rest) ← parsePipeline fuel (skipLineEnds ts)
    let (s, rest) ← parseChoices fuel s rest
    match rest with
    | .operator .sequence :: rest =>
      match skipLineEnds rest with
      | [] => some (s, [])
      | .operator .closing :: rest => some (s, .operator .closing :: rest)
      | rest => (parseSequence fuel rest).map fun (more, r) => (.sequence s more, r)
    | rest => some (s, rest)

end

def parse (text : String) : Option (Option Script) := do
  let cs := text.toList
  let tokens ← readTokens (cs.length + 1) cs
  match skipLineEnds tokens with
  | [] => some none
  | tokens =>
    match ← parseSequence (8 * tokens.length + 8) tokens with
    | (s, []) => some (some s)
    | _ => none

end Provision.Shell
