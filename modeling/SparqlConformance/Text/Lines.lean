import SparqlConformance.Text.Space
/-!
# Lines

How texts are cut into lines and put together again. A line ends before a line feed or before a
carriage return and a line feed; what follows the last line feed is a line only when it is not empty,
and there a carriage return stays.
-/
namespace SparqlConformance.Text

def lines : List Char → List (List Char)
  | [] => []
  | '\n' :: r => [] :: lines r
  | '\r' :: '\n' :: r => [] :: lines r
  | c :: r =>
    match lines r with
    | [] => [[c]]
    | l :: ls => (c :: l) :: ls

/-- Joins the pieces with a separator between neighbours. -/
def join (sep : List Char) : List (List Char) → List Char
  | [] => []
  | [p] => p
  | p :: q :: ps => p ++ sep ++ join sep (q :: ps)

/-- The pieces of a text between occurrences of one character; never empty. -/
def splitAt (sep : Char) : List Char → List (List Char)
  | [] => [[]]
  | c :: r =>
    if c = sep then [] :: splitAt sep r
    else match splitAt sep r with
      | [] => [[c]]
      | p :: ps => (c :: p) :: ps

/-- The rest of a text after a given beginning. -/
def stripStart : List Char → List Char → Option (List Char)
  | [], s => some s
  | _ :: _, [] => none
  | p :: ps, c :: cs => if p = c then stripStart ps cs else none

/-- The beginning of a text before a given end. -/
def stripEnd (e s : List Char) : Option (List Char) :=
  (stripStart e.reverse s.reverse).map List.reverse

/-- What stands before and after the first occurrence of a character. -/
def cutFirst (c : Char) : List Char → Option (List Char × List Char)
  | [] => none
  | d :: r => if d = c then some ([], r) else (cutFirst c r).map fun (a, b) => (d :: a, b)

/-- What stands before and after the first occurrence of a text. -/
def cutAt (pat : List Char) : List Char → Option (List Char × List Char)
  | [] => if pat.isEmpty then some ([], []) else none
  | c :: r =>
    match stripStart pat (c :: r) with
    | some rest => some ([], rest)
    | none => (cutAt pat r).map fun (a, b) => (c :: a, b)

@[simp] theorem stripStart_append (p s : List Char) : stripStart p (p ++ s) = some s := by
  induction p with
  | nil => rfl
  | cons c p ih => simp [stripStart, ih]

theorem eq_append_of_stripStart {p s r : List Char} (h : stripStart p s = some r) : s = p ++ r := by
  induction p generalizing s with
  | nil => simpa [stripStart] using h
  | cons c p ih =>
    cases s with
    | nil => simp [stripStart] at h
    | cons d s =>
      by_cases hc : c = d
      · subst hc
        simp only [stripStart, if_true] at h
        simp [ih h]
      · simp [stripStart, hc] at h

end SparqlConformance.Text

namespace SparqlConformance

def linesOf (s : String) : List String := (Text.lines s.toList).map String.ofList

def joinLines (ls : List String) : String := "\n".intercalate ls

/-- Lower case of the ASCII letters; every other character stays. -/
def lowerAscii (s : String) : String := String.ofList (s.toList.map Char.toLower)

def equalIgnoringCase (a b : String) : Bool := lowerAscii a == lowerAscii b

end SparqlConformance
