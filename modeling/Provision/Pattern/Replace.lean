import Provision.Pattern.Basic
import Provision.Text.Lines

namespace Provision.Pattern

open Text

def cutPiece (piece : List Char) : List Char × List Char :=
  match piece.reverse with
  | '\n' :: r => (r.reverse, ['\n'])
  | _ => (piece, [])

def changes (p : Pattern) (replacement line : List Char) : Bool :=
  p.isMatch (String.ofList line) && line != replacement

def replacePiece (p : Pattern) (replacement piece : List Char) : List Char :=
  let (line, terminator) := cutPiece piece
  (if p.changes replacement line then replacement else line) ++ terminator

/-- The text with every matching line replaced, if that changes it. -/
def replaceLines? (p : Pattern) (replacement content : String) : Option String :=
  let ps := piecesChars content.toList
  if ps.any fun piece => p.changes replacement.toList (cutPiece piece).1 then
    some (String.ofList (ps.flatMap (p.replacePiece replacement.toList)))
  else none

def matchesLineOf (p : Pattern) (content : String) : Bool := (lines content).any p.isMatch

end Provision.Pattern
