import Provision.Text.Blank

namespace Provision.Text

def dropLead? : List Char → List Char → Option (List Char)
  | [], cs => some cs
  | _ :: _, [] => none
  | p :: ps, c :: cs => if p = c then dropLead? ps cs else none

theorem dropLead?_eq_some_iff {p cs r : List Char} : dropLead? p cs = some r ↔ cs = p ++ r := by
  induction p generalizing cs with
  | nil => simp [dropLead?, eq_comm]
  | cons a p ih =>
    cases cs with
    | nil => simp [dropLead?]
    | cons c cs =>
      simp only [dropLead?]
      split
      · rename_i h
        subst h
        simp [ih]
      · rename_i h
        simp [Ne.symm h]

def startsWith (p s : String) : Bool := (dropLead? p.toList s.toList).isSome

def endsWith (p s : String) : Bool := (dropLead? p.toList.reverse s.toList.reverse).isSome

def stripLead? (p s : String) : Option String := (dropLead? p.toList s.toList).map String.ofList

def stripTail? (p s : String) : Option String :=
  (dropLead? p.toList.reverse s.toList.reverse).map fun r => String.ofList r.reverse

def splitFirstChars (sep : List Char) : List Char → Option (List Char × List Char)
  | [] => if sep.isEmpty then some ([], []) else none
  | c :: cs =>
    match dropLead? sep (c :: cs) with
    | some r => some ([], r)
    | none => (splitFirstChars sep cs).map fun (a, b) => (c :: a, b)

theorem splitFirstChars_eq_some {sep cs a b : List Char}
    (h : splitFirstChars sep cs = some (a, b)) : cs = a ++ sep ++ b := by
  induction cs generalizing a b with
  | nil =>
    simp only [splitFirstChars] at h
    split at h
    · cases h
      simp_all
    · cases h
  | cons c cs ih =>
    simp only [splitFirstChars] at h
    split at h
    · rename_i r hr
      cases h
      simpa using dropLead?_eq_some_iff.1 hr
    · cases hs : splitFirstChars sep cs with
      | none => simp [hs] at h
      | some q =>
        obtain ⟨x, y⟩ := q
        simp only [hs, Option.map_some, Option.some.injEq, Prod.mk.injEq] at h
        obtain ⟨rfl, rfl⟩ := h
        rw [ih hs]
        simp

theorem splitFirstChars_length {sep cs a b : List Char} (hsep : sep ≠ [])
    (h : splitFirstChars sep cs = some (a, b)) : b.length < cs.length := by
  rw [splitFirstChars_eq_some h]
  have := List.length_pos_iff.2 hsep
  simp
  omega

theorem splitFirstChars_one {c : Char} {u : List Char} (none : c ∉ u) (v : List Char) :
    splitFirstChars [c] (u ++ c :: v) = some (u, v) := by
  induction u with
  | nil => simp [splitFirstChars, dropLead?]
  | cons d u ih =>
    rw [List.mem_cons, not_or] at none
    simp [splitFirstChars, dropLead?, none.1, ih none.2]

theorem splitFirstChars_one_eq_none {c : Char} {cs : List Char} (none : c ∉ cs) : splitFirstChars [c] cs = .none := by
  induction cs with
  | nil => rfl
  | cons d cs ih =>
    rw [List.mem_cons, not_or] at none
    simp [splitFirstChars, dropLead?, none.1, ih none.2]

/-- The parts of the text between the occurrences of a separator, found from the left; an empty
separator cuts nothing. -/
def splitAllChars (sep : List Char) (cs : List Char) : List (List Char) :=
  if _hsep : sep = [] then [cs]
  else
    match _h : splitFirstChars sep cs with
    | none => [cs]
    | some (a, b) => a :: splitAllChars sep b
  termination_by cs.length
  decreasing_by exact splitFirstChars_length _hsep _h

def splitFirst? (sep s : String) : Option (String × String) :=
  (splitFirstChars sep.toList s.toList).map fun (a, b) => (String.ofList a, String.ofList b)

def splitAll (sep s : String) : List String :=
  (splitAllChars sep.toList s.toList).map String.ofList

def containsText (part s : String) : Bool := (splitFirstChars part.toList s.toList).isSome

/-- Every occurrence of `part`, found from the left, replaced; an empty part is replaced before
every character and at the end. -/
def replaceAllChars (part by_ cs : List Char) : List Char :=
  if part.isEmpty then by_ ++ cs.flatMap fun c => c :: by_
  else by_.intercalate (splitAllChars part cs)

def replaceAll (part by_ s : String) : String :=
  String.ofList (replaceAllChars part.toList by_.toList s.toList)

def consWord (c : Char) : List (List Char) → List (List Char)
  | [] => [[c]]
  | w :: ws => (c :: w) :: ws

/-- The maximal runs of characters that are not blank. -/
def wordsChars : List Char → List (List Char)
  | [] => []
  | c :: cs =>
    if isBlank c then wordsChars cs
    else
      match cs with
      | [] => [[c]]
      | d :: _ => if isBlank d then [c] :: wordsChars cs else consWord c (wordsChars cs)

def words (s : String) : List String := (wordsChars s.toList).map String.ofList

def joinWith (sep : String) (parts : List String) : String := sep.intercalate parts

def natText (n : Nat) : String := String.ofList (Nat.toDigits 10 n)

def intText : Int → String
  | .ofNat n => natText n
  | .negSucc n => "-" ++ natText (n + 1)

def digitValue? (c : Char) : Option Nat :=
  if '0' ≤ c && c ≤ '9' then some (c.toNat - '0'.toNat) else none

def parseDigits? : List Char → Option Nat
  | [] => none
  | cs => cs.foldl (fun acc c => acc.bind fun n => (digitValue? c).map (10 * n + ·)) (some 0)

end Provision.Text
