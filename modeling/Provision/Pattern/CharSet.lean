import Provision.Text.Blank
import Provision.Text.CaseMap
import Provision.Text.WordChars

namespace Provision.Pattern

inductive CharSet where
  | none
  | any
  | range (low high : Char)
  | digit
  | blank
  | word
  | upper
  | lower
  | letter
  | union (a b : CharSet)
  | inter (a b : CharSet)
  | diff (a b : CharSet)
  | symmetric (a b : CharSet)
  | compl (a : CharSet)
  /-- The characters that differ from one in the set by their case at most; of ASCII letters only,
  if `wide` is false. -/
  | folded (wide : Bool) (a : CharSet)
deriving Repr, Inhabited

namespace CharSet

/-- Characters with a counterpart that neither the upper nor the lower case of either leads to. -/
def rareCounterparts : List (Char × List Char) :=
  [('k', ['K']), ('s', ['ſ']), ('å', ['Å']), ('ω', ['Ω']), ('θ', ['ϑ', 'ϴ']), ('ς', ['σ', 'Σ']),
    ('σ', ['ς']), ('β', ['ϐ']), ('ε', ['ϵ']), ('κ', ['ϰ']), ('π', ['ϖ']), ('ρ', ['ϱ']),
    ('φ', ['ϕ']), ('μ', ['µ']), ('ι', ['\u0345', '\u1fbe']), ('ß', ['ẞ'])]

def counterparts (wide : Bool) (c : Char) : List Char :=
  if !wide then [c.toLower, c.toUpper]
  else if c = 'ı' || c = 'İ' then []
  else
    let low := Text.simpleLower (Text.simpleUpper c)
    [Text.simpleLower c, Text.simpleUpper c, low, Text.simpleUpper low] ++
      (rareCounterparts.lookup low).getD []

def contains : CharSet → Char → Bool
  | .none, _ => false
  | .any, _ => true
  | .range low high, c => low ≤ c && c ≤ high
  | .digit, c => Text.isDecimalDigit c
  | .blank, c => Text.isBlank c
  | .word, c => Text.isWordChar c
  | .upper, c => Text.simpleLower c != c
  | .lower, c => Text.simpleUpper c != c
  | .letter, c => Text.isWordChar c && !Text.isDecimalDigit c && !Text.extendsGrapheme c && c != '_'
  | .union a b, c => contains a c || contains b c
  | .inter a b, c => contains a c && contains b c
  | .diff a b, c => contains a c && !contains b c
  | .symmetric a b, c => contains a c != contains b c
  | .compl a, c => !contains a c
  | .folded wide a, c => contains a c || (counterparts wide c).any (contains a)

def single (c : Char) : CharSet := .range c c

def ofList (sets : List CharSet) : CharSet :=
  match sets with
  | [] => .none
  | s :: rest => rest.foldl .union s

def ranges (rs : List (Char × Char)) : CharSet := ofList (rs.map fun (a, b) => .range a b)

def asciiDigit : CharSet := .range '0' '9'

def asciiWord : CharSet := ranges [('0', '9'), ('A', 'Z'), ('_', '_'), ('a', 'z')]

def asciiBlank : CharSet := ranges [('\t', '\r'), (' ', ' ')]

def ascii : CharSet := .range '\x00' '\x7f'

def named? : String → Option CharSet
  | "alnum" => some (ranges [('0', '9'), ('A', 'Z'), ('a', 'z')])
  | "alpha" => some (ranges [('A', 'Z'), ('a', 'z')])
  | "ascii" => some ascii
  | "blank" => some (ranges [('\t', '\t'), (' ', ' ')])
  | "cntrl" => some (ranges [('\x00', '\x1f'), ('\x7f', '\x7f')])
  | "digit" => some asciiDigit
  | "graph" => some (.range '!' '~')
  | "lower" => some (.range 'a' 'z')
  | "print" => some (.range ' ' '~')
  | "punct" => some (ranges [('!', '/'), (':', '@'), ('[', '\x60'), ('\x7b', '~')])
  | "space" => some asciiBlank
  | "upper" => some (.range 'A' 'Z')
  | "word" => some asciiWord
  | "xdigit" => some (ranges [('0', '9'), ('A', 'F'), ('a', 'f')])
  | _ => Option.none

/-- The characters with a property, named by one of its usual names. Letter case, blanks and
underscores in the name do not count. -/
def property? (name : String) : Option CharSet :=
  let key := String.ofList ((name.toList.filter fun c => c != ' ' && c != '_' && c != '-').map Char.toLower)
  if ["l", "letter", "alphabetic", "alpha"].contains key then some .letter
  else if ["lu", "uppercaseletter", "uppercase", "upper"].contains key then some .upper
  else if ["ll", "lowercaseletter", "lowercase", "lower"].contains key then some .lower
  else if ["nd", "decimalnumber", "digit"].contains key then some .digit
  else if ["whitespace", "space", "wspace"].contains key then some .blank
  else if ["any"].contains key then some .any
  else if ["ascii"].contains key then some ascii
  else Option.none

/-- Whether a set without the wide classes holds a character beyond ASCII. -/
def reachesBeyondAscii : CharSet → Bool
  | .none => false
  | .any | .digit | .blank | .word | .upper | .lower | .letter => true
  | .range _ high => '\x7f' < high
  | .union a b | .symmetric a b => reachesBeyondAscii a || reachesBeyondAscii b
  | .inter a b => reachesBeyondAscii a && reachesBeyondAscii b
  | .diff a _ => reachesBeyondAscii a
  | .compl a => !reachesBeyondAscii a
  | .folded _ a => reachesBeyondAscii a

def cost : CharSet → Nat
  | .digit => 3000
  | .word | .letter | .upper | .lower => 21000
  | .any | .compl _ => 600
  | .union a b | .inter a b | .diff a b | .symmetric a b => cost a + cost b
  | .folded _ a => cost a
  | .blank => 400
  | _ => 32

end CharSet

end Provision.Pattern
