import SparqlConformance.Text.Lines
/-!
# Patterns

The patterns of the shell: a star stands for any text, a question mark for any character, and brackets for
one character of a class. Quoted characters stand for themselves.
-/
namespace SparqlConformance.Shell

/-- A character of a pattern, and whether it was quoted. -/
structure PatternChar where
  char : Char
  quoted : Bool
  deriving DecidableEq, Repr

inductive PatternItem
  | one (c : Char)
  | any
  | many
  | oneOf (negated : Bool) (ranges : List (Char × Char))
  deriving DecidableEq, Repr

namespace Pattern

def isActive (p : PatternChar) (c : Char) : Bool := p.char == c && !p.quoted

/-- The characters of brackets up to the closing one, which does not stand first. -/
def classText (isFirst : Bool) : List PatternChar → Option (List PatternChar × List PatternChar)
  | [] => none
  | p :: r =>
    if isActive p ']' && !isFirst then some ([], r)
    else (classText false r).map fun (a, b) => (p :: a, b)

def ranges : List PatternChar → List (Char × Char)
  | a :: ⟨'-', false⟩ :: b :: r => (a.char, b.char) :: ranges r
  | a :: r => (a.char, a.char) :: ranges r
  | [] => []

def classItem : List PatternChar → PatternItem
  | p :: r => if isActive p '!' || isActive p '^' then .oneOf true (ranges r) else .oneOf false (ranges (p :: r))
  | [] => .oneOf false []

/-- The items of a pattern; an opening bracket without a closing one stands for itself. -/
def items : Nat → List PatternChar → List PatternItem
  | 0, _ | _, [] => []
  | fuel + 1, p :: r =>
    if isActive p '*' then .many :: items fuel r
    else if isActive p '?' then .any :: items fuel r
    else if isActive p '[' then
      let (mark, body) := match r with
        | q :: r' => if isActive q '!' || isActive q '^' then ([q], r') else ([], r)
        | [] => ([], [])
      match classText true body with
      | some (inside, rest) => classItem (mark ++ inside) :: items fuel rest
      | none => .one '[' :: items fuel r
    else .one p.char :: items fuel r

def suffixes : List Char → List (List Char)
  | [] => [[]]
  | c :: r => (c :: r) :: suffixes r

def isInside (ranges : List (Char × Char)) (c : Char) : Bool :=
  ranges.any fun r => r.1 ≤ c && c ≤ r.2

def fits : List PatternItem → List Char → Bool
  | [], s => s.isEmpty
  | .many :: ps, s => (suffixes s).any (fits ps)
  | .any :: ps, _ :: s => fits ps s
  | .one p :: ps, c :: s => p == c && fits ps s
  | .oneOf negated ranges :: ps, c :: s => isInside ranges c != negated && fits ps s
  | _, [] => false

end Pattern

/-- Whether a text fits a pattern from its start to its end. -/
def fitsPattern (pattern : List PatternChar) (s : List Char) : Bool :=
  Pattern.fits (Pattern.items pattern.length pattern) s

/-- The lengths of the beginnings of a text, the shortest first. -/
def cutLengths (s : List Char) : List Nat := List.range (s.length + 1)

/-- Removes a beginning, or an end, that fits a pattern: the shortest, or the longest, there is. -/
def trimPattern (atEnd longest : Bool) (pattern : List PatternChar) (s : List Char) : List Char :=
  let lengths := if longest then (cutLengths s).reverse else cutLengths s
  let part (n : Nat) := if atEnd then s.drop (s.length - n) else s.take n
  match lengths.find? fun n => fitsPattern pattern (part n) with
  | some n => if atEnd then s.take (s.length - n) else s.drop n
  | none => s

/-- Whether a word may stand for names of files. -/
def isGlob (pattern : List PatternChar) : Bool :=
  pattern.any fun p => !p.quoted && (p.char == '*' || p.char == '?' || p.char == '[')

end SparqlConformance.Shell
