import Provision.Json.Basic
import Provision.Text.Split

namespace Provision.Json

open Text

/-- A double is written without an exponent while its leading digit stands for 10^-5 to 10^15. -/
def layout : Decimal.Layout := ⟨some (-5), some 15, true, 2⟩

def numberText : Number → List Char
  | .int n => (intText n).toList
  | .double x => if x.isFinite then layout.write x else "null".toList

def hexDigit (n : Nat) : Char := (Nat.digitChar n)

def escapeChar (c : Char) : List Char :=
  match c with
  | '"' => ['\\', '"']
  | '\\' => ['\\', '\\']
  | '\x08' => ['\\', 'b']
  | '\x0c' => ['\\', 'f']
  | '\n' => ['\\', 'n']
  | '\r' => ['\\', 'r']
  | '\t' => ['\\', 't']
  | c =>
    if c.toNat < 0x20 then ['\\', 'u', '0', '0', hexDigit (c.toNat / 16), hexDigit (c.toNat % 16)]
    else [c]

def quoted (s : String) : List Char := '"' :: s.toList.flatMap escapeChar ++ ['"']

mutual

def compactChars : Json → List Char
  | .null => "null".toList
  | .bool b => (if b then "true" else "false").toList
  | .number n => numberText n
  | .string s => quoted s
  | .array items => '[' :: compactItems items ++ [']']
  | .object fields => '\x7b' :: compactFields fields ++ ['\x7d']

def compactItems : List Json → List Char
  | [] => []
  | [v] => compactChars v
  | v :: w :: rest => compactChars v ++ ',' :: compactItems (w :: rest)

def compactFields : List (String × Json) → List Char
  | [] => []
  | [(k, v)] => quoted k ++ ':' :: compactChars v
  | (k, v) :: f :: rest => quoted k ++ ':' :: compactChars v ++ ',' :: compactFields (f :: rest)

end

def compact (v : Json) : String := String.ofList v.compactChars

def newline (depth : Nat) : List Char := '\n' :: List.replicate (2 * depth) ' '

mutual

def prettyChars : Nat → Json → List Char
  | _, .array [] => ['[', ']']
  | _, .object [] => ['\x7b', '\x7d']
  | depth, .array items => '[' :: prettyItems (depth + 1) items ++ newline depth ++ [']']
  | depth, .object fields => '\x7b' :: prettyFields (depth + 1) fields ++ newline depth ++ ['\x7d']
  | _, .null => "null".toList
  | _, .bool b => (if b then "true" else "false").toList
  | _, .number n => numberText n
  | _, .string s => quoted s

def prettyItems : Nat → List Json → List Char
  | _, [] => []
  | depth, [v] => newline depth ++ prettyChars depth v
  | depth, v :: w :: rest =>
    newline depth ++ prettyChars depth v ++ ',' :: prettyItems depth (w :: rest)

def prettyFields : Nat → List (String × Json) → List Char
  | _, [] => []
  | depth, [(k, v)] => newline depth ++ quoted k ++ ':' :: ' ' :: prettyChars depth v
  | depth, (k, v) :: f :: rest =>
    newline depth ++ quoted k ++ ':' :: ' ' :: prettyChars depth v ++
      ',' :: prettyFields depth (f :: rest)

end

def pretty (v : Json) : String := String.ofList (v.prettyChars 0)

end Provision.Json
