import SparqlConformance.Rdf.Term
/-!
# Relabeling

Blank nodes numbered in the order in which they are first met. The state is the list of the labels met
so far; the number of a label is its place in that list.
-/
namespace SparqlConformance

/-- Labels in the order in which they were first met. -/
abbrev Seen := List String

namespace Seen

/-- The number of a label, and the labels met afterwards. -/
def number (seen : Seen) (label : String) : Nat × Seen :=
  match seen.idxOf? label with
  | some i => (i, seen)
  | none => (seen.length, seen ++ [label])

end Seen

/-- The written form of a blank node known by a number; `mark` tells kinds of numbers apart. -/
def numbered (mark : Char) (n : Nat) : List Char := '_' :: ':' :: mark :: Nat.toDigits 10 n

/-- Writes a term with blank nodes numbered. -/
def renderNumbered (mark : Char) (seen : Seen) : Term → List Char × Seen
  | .blank label =>
    let (n, seen) := seen.number label
    (numbered mark n, seen)
  | t => (t.render, seen)

end SparqlConformance
