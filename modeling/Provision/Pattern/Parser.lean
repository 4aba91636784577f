import Provision.Pattern.Basic
import Provision.Text.Split

namespace Provision.Pattern

inductive Malformed where
  | groupUnclosed
  | groupUnopened
  | groupName
  | lookAround
  | missingOperand
  | repetitionCount
  | flags
  | escape
  | hexDigits
  | property
  | classUnclosed
  | classRange
  | classEscape
  | notText
  | nestedTooDeep
  | tooLarge
deriving DecidableEq, Repr

namespace Malformed

def reason : Malformed → String
  | .groupUnclosed => "unclosed group"
  | .groupUnopened => "unopened group"
  | .groupName => "invalid capture group name"
  | .lookAround => "look-around, including look-ahead and look-behind, is not supported"
  | .missingOperand => "repetition operator missing expression"
  | .repetitionCount => "invalid repetition count range"
  | .flags => "unrecognized flag"
  | .escape => "unrecognized escape sequence"
  | .hexDigits => "invalid hexadecimal digit"
  | .property => "Unicode property not found"
  | .classUnclosed => "unclosed character class"
  | .classRange => "invalid character class range"
  | .classEscape => "invalid escape sequence found in character class"
  | .notText => "pattern can match invalid UTF-8"
  | .nestedTooDeep => "exceeds the nest limit"
  | .tooLarge => ""

/-- A pattern may be compiled to so many bytes. -/
def sizeLimit : Nat := 10485760

def message : Malformed → String
  | .tooLarge => "Compiled regex exceeds size limit of " ++ Text.natText sizeLimit ++ " bytes."
  | m => "regex parse error:\nerror: " ++ m.reason

end Malformed

structure Flags where
  ignoreCase : Bool
  multiLine : Bool
  dotAll : Bool
  swapGreed : Bool
  wide : Bool
  eitherEnd : Bool
  verbose : Bool
deriving DecidableEq, Repr

def Flags.initial : Flags := ⟨false, false, false, false, true, false, false⟩

def skipComment : List Char → List Char
  | [] => []
  | '\n' :: rest => rest
  | _ :: rest => skipComment rest

def skipVerbose : Nat → List Char → List Char
  | 0, cs => cs
  | _, [] => []
  | fuel + 1, c :: rest =>
    if Text.isBlank c then skipVerbose fuel rest
    else if c = '#' then skipVerbose fuel (skipComment rest)
    else c :: rest

def Flags.skip (f : Flags) (cs : List Char) : List Char :=
  if f.verbose then skipVerbose cs.length cs else cs

def Flags.literal (f : Flags) (c : Char) : CharSet :=
  if f.ignoreCase then .folded f.wide (.single c) else .single c

def isMeta (c : Char) : Bool := "\\.+*?()|[]\x7b\x7d^$#&-~".toList.contains c

def isEscapable (c : Char) : Bool :=
  isMeta c || (c.toNat < 0x80 && !c.isAlphanum && c != '<' && c != '>')

def hexDigit? (c : Char) : Option Nat :=
  if '0' ≤ c && c ≤ '9' then some (c.toNat - 48)
  else if 'a' ≤ c && c ≤ 'f' then some (c.toNat - 87)
  else if 'A' ≤ c && c ≤ 'F' then some (c.toNat - 55)
  else none

def charOfNumber? (n : Nat) : Option Char :=
  if n < 0xd800 || (0xe000 ≤ n && n < 0x110000) then some (Char.ofNat n) else none

def charOfHex (digits : List Char) : Except Malformed Char :=
  match digits.mapM hexDigit? with
  | none => .error .hexDigits
  | some [] => .error .hexDigits
  | some ds =>
    match charOfNumber? (ds.foldl (fun n d => 16 * n + d) 0) with
    | some c => .ok c
    | none => .error .hexDigits

def takeSpaced (f : Flags) : Nat → List Char → Except Malformed (List Char × List Char)
  | 0, cs => .ok ([], cs)
  | n + 1, cs =>
    match f.skip cs with
    | [] => .error .escape
    | c :: rest => (takeSpaced f n rest).map fun (ds, r) => (c :: ds, r)

def takeBraced (f : Flags) : List Char → Except Malformed (List Char × List Char)
  | [] => .error .escape
  | '\x7d' :: rest => .ok ([], rest)
  | c :: rest =>
    (takeBraced f rest).map fun (ds, r) => (if f.verbose && Text.isBlank c then ds else c :: ds, r)

/-- A character given by its number; the letter before tells how many digits there are without
braces. -/
def readHex (f : Flags) (kind : Char) (cs : List Char) : Except Malformed (Char × List Char) := do
  let (digits, rest) ←
    match f.skip cs with
    | [] => .error .escape
    | '\x7b' :: rest => takeBraced f rest
    | cs => takeSpaced f (if kind = 'x' then 2 else if kind = 'u' then 4 else 8) cs
  let c ← charOfHex digits
  .ok (c, rest)

inductive Item where
  | char (c : Char)
  | set (s : CharSet)
  | look (k : Look)

def classLetter (f : Flags) (c : Char) : Except Malformed CharSet :=
  let base : CharSet := match c.toLower with
    | 'd' => if f.wide then .digit else .asciiDigit
    | 's' => if f.wide then .blank else .asciiBlank
    | _ => if f.wide then .word else .asciiWord
  if c.isUpper then (if f.wide then .ok (.compl base) else .error .notText) else .ok base

def readProperty (f : Flags) (negated : Bool) (cs : List Char) : Except Malformed (CharSet × List Char) := do
  if !f.wide then throw Malformed.property
  let (name, rest) ←
    match f.skip cs with
    | [] => .error .escape
    | '\x7b' :: rest => takeBraced f rest
    | c :: rest => .ok ([c], rest)
  let (negated, name) := match name with
    | '^' :: name => (!negated, name)
    | name => (negated, name)
  match CharSet.property? (String.ofList name) with
  | some s => .ok (if negated then .compl s else s, rest)
  | none => .error .property

def isBoundaryChar (c : Char) : Bool := c.isAlpha || c = '-'

/-- The kind of word boundary named in braces after `\b`; absent where the braces are a count. -/
def readBoundary (f : Flags) (cs : List Char) : Except Malformed (Option Look × List Char) :=
  match cs with
  | '\x7b' :: rest =>
    match f.skip rest with
    | [] => .error .escape
    | c :: more =>
      if !isBoundaryChar c then .ok (none, cs)
      else do
        let (name, rest) ← takeBraced f (c :: more)
        let ascii := !f.wide
        match String.ofList name with
        | "start" => .ok (some (.wordStart ascii), rest)
        | "end" => .ok (some (.wordEnd ascii), rest)
        | "start-half" => .ok (some (.wordStartHalf ascii), rest)
        | "end-half" => .ok (some (.wordEndHalf ascii), rest)
        | _ => .error .escape
  | _ => .ok (none, cs)

def readEscape (f : Flags) : List Char → Except Malformed (Item × List Char)
  | [] => .error .escape
  | c :: rest =>
    if c.isDigit then .error .escape
    else if c = 'x' || c = 'u' || c = 'U' then do
      let (d, rest) ← readHex f c rest
      if !f.wide && '\x7f' < d then throw Malformed.notText
      .ok (.char d, rest)
    else if c = 'p' || c = 'P' then
      (readProperty f (c = 'P') rest).map fun (s, r) => (.set s, r)
    else if "dswDSW".toList.contains c then (classLetter f c).map fun s => (.set s, rest)
    else if isEscapable c then .ok (.char c, rest)
    else
      match c with
      | 'a' => .ok (.char '\x07', rest)
      | 'f' => .ok (.char '\x0c', rest)
      | 't' => .ok (.char '\t', rest)
      | 'n' => .ok (.char '\n', rest)
      | 'r' => .ok (.char '\r', rest)
      | 'v' => .ok (.char '\x0b', rest)
      | 'A' => .ok (.look .textStart, rest)
      | 'z' => .ok (.look .textEnd, rest)
      | 'b' => do
        let (kind, rest) ← readBoundary f rest
        .ok (.look (kind.getD (.wordBoundary !f.wide)), rest)
      | 'B' => .ok (.look (.notWordBoundary !f.wide), rest)
      | '<' => .ok (.look (.wordStart !f.wide), rest)
      | '>' => .ok (.look (.wordEnd !f.wide), rest)
      | _ => .error .escape

/-- The last two operands of the set operations, kept until the next one. -/
inductive SetOperator where
  | inter
  | diff
  | symmetric

def SetOperator.apply (f : Flags) (op : Option (SetOperator × CharSet)) (rhs : CharSet) : CharSet :=
  let fold (s : CharSet) : CharSet := if f.ignoreCase then .folded f.wide s else s
  match op with
  | none => rhs
  | some (.inter, lhs) => .inter (fold lhs) (fold rhs)
  | some (.diff, lhs) => .diff (fold lhs) (fold rhs)
  | some (.symmetric, lhs) => .symmetric (fold lhs) (fold rhs)

def readClassItem (f : Flags) : List Char → Except Malformed (Item × List Char)
  | [] => .error .classUnclosed
  | '\\' :: rest => readEscape f rest
  | c :: rest => if !f.wide && '\x7f' < c then .error .notText else .ok (.char c, rest)

def Item.toSet : Item → Except Malformed CharSet
  | .char c => .ok (.single c)
  | .set s => .ok s
  | .look _ => .error .classEscape

def Item.toChar : Item → Except Malformed Char
  | .char c => .ok c
  | _ => .error .classRange

/-- An item, or a range of two characters. A hyphen before a closing bracket or another hyphen
makes no range. -/
def readClassRange (f : Flags) (cs : List Char) : Except Malformed (CharSet × List Char) := do
  let (first, rest) ← readClassItem f cs
  match f.skip rest with
  | [] => .error .classUnclosed
  | '-' :: after =>
    match f.skip after with
    | [] => .error .classUnclosed
    | d :: more =>
      if d = ']' || d = '-' then do
        let s ← first.toSet
        .ok (s, '-' :: after)
      else do
        let (last, rest) ← readClassItem f (d :: more)
        let a ← first.toChar
        let b ← last.toChar
        if b < a then .error .classRange else .ok (.range a b, rest)
  | rest => do
    let s ← first.toSet
    .ok (s, rest)

def readNamedClass? (cs : List Char) : Option (CharSet × List Char) :=
  match cs with
  | ':' :: rest =>
    let (negated, rest) := match rest with
      | '^' :: r => (true, r)
      | r => (false, r)
    let name := rest.takeWhile (· != ':')
    match rest.dropWhile (· != ':') with
    | ':' :: ']' :: r =>
      (CharSet.named? (String.ofList name)).map fun s => (if negated then .compl s else s, r)
    | _ => none
  | _ => none

/-- Hyphens that open a class stand for themselves. -/
def readOpenHyphens (f : Flags) : Nat → List Char → List CharSet × List Char
  | 0, cs => ([], cs)
  | fuel + 1, cs =>
    match cs with
    | '-' :: rest =>
      let (sets, r) := readOpenHyphens f fuel (f.skip rest)
      (.single '-' :: sets, r)
    | cs => ([], cs)

def readClassOpen (f : Flags) (cs : List Char) : Except Malformed (Bool × List CharSet × List Char) :=
  let cs := f.skip cs
  let (negated, cs) := match cs with
    | '^' :: rest => (true, f.skip rest)
    | cs => (false, cs)
  let (sets, cs) := readOpenHyphens f cs.length cs
  match sets, cs with
  | [], ']' :: rest => if (f.skip rest).isEmpty then .error .classUnclosed
    else .ok (negated, [.single ']'], rest)
  | sets, [] => let _ := sets; .error .classUnclosed
  | sets, cs => .ok (negated, sets, cs)

/-- A class as a whole: case counterparts join first, then the complement is taken. -/
def finishClass (f : Flags) (negated : Bool) (s : CharSet) : Except Malformed CharSet :=
  let s := if f.ignoreCase then .folded f.wide s else s
  let s := if negated then .compl s else s
  if !f.wide && s.reachesBeyondAscii then .error .notText else .ok s

def readClass (f : Flags) (negated : Bool) : Nat → List CharSet → Option (SetOperator × CharSet) →
    List Char → Except Malformed (CharSet × List Char)
  | 0, _, _, _ => .error .classUnclosed
  | fuel + 1, sets, op, cs =>
    let operator (k : SetOperator) (rest : List Char) : Except Malformed (CharSet × List Char) :=
      readClass f negated fuel [] (some (k, SetOperator.apply f op (.ofList sets))) rest
    match f.skip cs with
    | [] => .error .classUnclosed
    | ']' :: rest => (finishClass f negated (SetOperator.apply f op (.ofList sets))).map (·, rest)
    | '&' :: '&' :: rest => operator .inter rest
    | '-' :: '-' :: rest => operator .diff rest
    | '~' :: '~' :: rest => operator .symmetric rest
    | '[' :: rest =>
      match readNamedClass? rest with
      | some (s, rest) =>
        match finishClass f false s with
        | .error e => .error e
        | .ok s => readClass f negated fuel (sets ++ [s]) op rest
      | none =>
        match readClassOpen f rest with
        | .error e => .error e
        | .ok (inner, opened, rest) =>
          match readClass f inner fuel opened none rest with
          | .error e => .error e
          | .ok (s, rest) => readClass f negated fuel (sets ++ [s]) op rest
    | cs =>
      match readClassRange f cs with
      | .error e => .error e
      | .ok (s, rest) => readClass f negated fuel (sets ++ [s]) op rest

def readCount (cs : List Char) : Except Malformed (Option Nat × List Char) :=
  let cs := cs.dropWhile Text.isBlank
  let digits := cs.takeWhile Char.isDigit
  let rest := (cs.dropWhile Char.isDigit).dropWhile Text.isBlank
  match Text.parseDigits? digits with
  | none => .ok (none, rest)
  | some n => if n < 0x100000000 then .ok (some n, rest) else .error .repetitionCount

def readCounts (f : Flags) (cs : List Char) : Except Malformed ((Nat × Option Nat) × List Char) := do
  let (low, rest) ← readCount (f.skip cs)
  match rest with
  | [] => .error .repetitionCount
  | ',' :: rest =>
    match f.skip rest with
    | '\x7d' :: rest =>
      match low with
      | some n => .ok ((n, none), rest)
      | none => .error .repetitionCount
    | rest => do
      let (high, rest) ← readCount rest
      match low, high, rest with
      | some a, some b, '\x7d' :: rest =>
        if b < a then .error .repetitionCount else .ok ((a, some b), rest)
      | _, _, _ => .error .repetitionCount
  | '\x7d' :: rest =>
    match low with
    | some n => .ok ((n, some n), rest)
    | none => .error .repetitionCount
  | _ => .error .repetitionCount

def skipLazy (f : Flags) (cs : List Char) : List Char :=
  match f.skip cs with
  | '?' :: rest => rest
  | _ => cs

def Flags.set? (f : Flags) (on : Bool) : Char → Option Flags
  | 'i' => some { f with ignoreCase := on }
  | 'm' => some { f with multiLine := on }
  | 's' => some { f with dotAll := on }
  | 'U' => some { f with swapGreed := on }
  | 'u' => some { f with wide := on }
  | 'R' => some { f with eitherEnd := on }
  | 'x' => some { f with verbose := on }
  | _ => none

def readFlags (f : Flags) (on : Bool) (seen : List Char) : List Char →
    Except Malformed (List Char × Flags × Char × List Char)
  | [] => .error .flags
  | c :: rest =>
    if c = ':' || c = ')' then
      if seen.head? == some '-' then .error .flags else .ok (seen, f, c, rest)
    else if seen.contains c then .error .flags
    else if c = '-' then readFlags f false (c :: seen) rest
    else
      match f.set? on c with
      | some f => readFlags f on (c :: seen) rest
      | none => .error .flags

def isNameStart (c : Char) : Bool := c = '_' || CharSet.letter.contains c

def isNameChar (c : Char) : Bool :=
  c = '_' || c = '.' || c = '[' || c = ']' || CharSet.letter.contains c || CharSet.digit.contains c

def readGroupName (names : List String) (cs : List Char) : Except Malformed (String × List Char) :=
  let name := cs.takeWhile (· != '>')
  match cs.dropWhile (· != '>'), name with
  | '>' :: rest, c :: more =>
    let text := String.ofList name
    if isNameStart c && more.all isNameChar && !names.contains text then .ok (text, rest)
    else .error .groupName
  | _, _ => .error .groupName

inductive Opening where
  | flags (f : Flags)
  | group (f : Flags) (names : List String)

def readOpening (f : Flags) (names : List String) (cs : List Char) : Except Malformed (Opening × List Char) :=
  match f.skip cs with
  | '?' :: '=' :: _ => .error .lookAround
  | '?' :: '!' :: _ => .error .lookAround
  | '?' :: '<' :: '=' :: _ => .error .lookAround
  | '?' :: '<' :: '!' :: _ => .error .lookAround
  | '?' :: 'P' :: '<' :: rest =>
    (readGroupName names rest).map fun (n, r) => (.group f (n :: names), r)
  | '?' :: '<' :: rest =>
    (readGroupName names rest).map fun (n, r) => (.group f (n :: names), r)
  | '?' :: rest =>
    match readFlags f true [] rest with
    | .error e => .error (if rest.isEmpty then .groupUnclosed else e)
    | .ok (seen, g, close, rest) =>
      if close = ')' then
        if seen.isEmpty then .error .missingOperand else .ok (.flags g, rest)
      else .ok (.group g names, rest)
  | rest => .ok (.group f names, rest)

def sequence (items : List (Option Pattern)) : Pattern :=
  match items.filterMap id with
  | [] => .empty
  | p :: rest => rest.foldl (fun acc q => .seq q acc) p

def alternatives (branches : List Pattern) (last : Pattern) : Pattern :=
  branches.foldl (fun acc b => .alt b acc) last

def Flags.dot (f : Flags) : Except Malformed CharSet :=
  if !f.wide then .error .notText
  else if f.dotAll then .ok .any
  else if f.eitherEnd then .ok (.compl (.ranges [('\n', '\n'), ('\r', '\r')]))
  else .ok (.compl (.single '\n'))

def Flags.caret (f : Flags) : Look :=
  if !f.multiLine then .textStart else if f.eitherEnd then .lineStartEither else .lineStart

def Flags.dollar (f : Flags) : Look :=
  if !f.multiLine then .textEnd else if f.eitherEnd then .lineEndEither else .lineEnd

def Item.toPattern (f : Flags) : Item → Pattern
  | .char c => .chars (f.literal c)
  | .set s => .chars s
  | .look k => .look k

def repeatLast (items : List (Option Pattern)) (low : Nat) (high : Option Nat) :
    Except Malformed (List (Option Pattern)) :=
  match items with
  | some p :: rest => .ok (some (.times p low high) :: rest)
  | _ => .error .missingOperand

/-- The items up to the end of the group or of the text; `items` and `branches` are those read so
far, the last one first. The result also holds the names of groups. -/
def readBody (inGroup : Bool) : Nat → Flags → List String → List (Option Pattern) → List Pattern →
    List Char → Except Malformed ((Pattern × List String) × List Char)
  | 0, _, _, _, _, _ => .error .nestedTooDeep
  | fuel + 1, f, names, items, branches, cs =>
    let finish := alternatives branches (sequence items)
    let push (p : Pattern) (rest : List Char) : Except Malformed ((Pattern × List String) × List Char) :=
      readBody inGroup fuel f names (some p :: items) branches rest
    let counted (low : Nat) (high : Option Nat) (rest : List Char) :
        Except Malformed ((Pattern × List String) × List Char) :=
      match repeatLast items low high with
      | .error e => .error e
      | .ok items => readBody inGroup fuel f names items branches (skipLazy f rest)
    match f.skip cs with
    | [] => if inGroup then .error .groupUnclosed else .ok ((finish, names), [])
    | '(' :: rest =>
      match readOpening f names rest with
      | .error e => .error e
      | .ok (.flags g, rest) => readBody inGroup fuel g names (none :: items) branches rest
      | .ok (.group g names, rest) =>
        match readBody true fuel g names [] [] rest with
        | .error e => .error e
        | .ok ((p, names), rest) =>
          readBody inGroup fuel f names (some p :: items) branches rest
    | ')' :: rest => if inGroup then .ok ((finish, names), rest) else .error .groupUnopened
    | '|' :: rest => readBody inGroup fuel f names [] (sequence items :: branches) rest
    | '[' :: rest =>
      match readClassOpen f rest with
      | .error e => .error e
      | .ok (negated, opened, rest) =>
        match readClass f negated (rest.length + 1) opened none rest with
        | .error e => .error e
        | .ok (s, rest) => push (.chars s) rest
    | '?' :: rest => counted 0 (some 1) rest
    | '*' :: rest => counted 0 none rest
    | '+' :: rest => counted 1 none rest
    | '\x7b' :: rest =>
      if items.head?.join.isNone then .error .missingOperand
      else
        match readCounts f rest with
        | .error e => .error e
        | .ok ((low, high), rest) => counted low high rest
    | '\\' :: rest =>
      match readEscape f rest with
      | .error e => .error e
      | .ok (item, rest) => push (item.toPattern f) rest
    | '.' :: rest =>
      match f.dot with
      | .error e => .error e
      | .ok s => push (.chars s) rest
    | '^' :: rest => push (.look f.caret) rest
    | '$' :: rest => push (.look f.dollar) rest
    | c :: rest => push (.chars (f.literal c)) rest

def nestLimit : Nat := 250

/-- The largest number of parentheses that are open at once, an upper bound of the nesting. -/
def openParentheses : Nat → Nat → List Char → Nat
  | _, most, [] => most
  | open_, most, c :: rest =>
    if c = '(' then openParentheses (open_ + 1) (max most (open_ + 1)) rest
    else if c = ')' then openParentheses (open_ - 1) most rest
    else openParentheses open_ most rest

def parse (text : String) : Except Malformed Pattern :=
  let cs := text.toList
  match readBody false (cs.length + 1) .initial [] [] [] cs with
  | .error e => .error e
  | .ok ((p, _), _) =>
    if nestLimit < openParentheses 0 0 cs then .error .nestedTooDeep
    else if Malformed.sizeLimit < p.cost then .error .tooLarge
    else .ok p

end Provision.Pattern
