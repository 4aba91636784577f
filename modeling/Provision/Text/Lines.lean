namespace Provision.Text

def consPiece (c : Char) : List (List Char) → List (List Char)
  | [] => [[c]]
  | p :: ps => (c :: p) :: ps

def piecesChars : List Char → List (List Char)
  | [] => []
  | c :: cs => if c = '\n' then ['\n'] :: piecesChars cs else consPiece c (piecesChars cs)

/-- A piece without its terminator: a line feed, or a carriage return and a line feed. -/
def stripTerminator (p : List Char) : List Char :=
  match p.reverse with
  | '\n' :: '\r' :: r => r.reverse
  | '\n' :: r => r.reverse
  | _ => p

def linesChars (cs : List Char) : List (List Char) := (piecesChars cs).map stripTerminator

theorem flatten_consPiece (c : Char) (ps : List (List Char)) :
    (consPiece c ps).flatten = c :: ps.flatten := by
  cases ps <;> simp [consPiece]

theorem flatten_piecesChars (cs : List Char) : (piecesChars cs).flatten = cs := by
  induction cs with
  | nil => rfl
  | cons c cs ih =>
    simp only [piecesChars]
    split
    · simp [*]
    · rw [flatten_consPiece, ih]

def pieces (s : String) : List String := (piecesChars s.toList).map String.ofList

def lines (s : String) : List String := (linesChars s.toList).map String.ofList

end Provision.Text
