import SparqlConformance.Proofs.SymbolicText
import SparqlConformance.Proofs.TripleReading
/-!
# Lines with their labels left open

The text of a triple as it stands, with its labels left open. A line whose labels are filled with other
labels is read as the renamed triple, as long as the reader takes each label as a whole: it stops at a
colon and at the first of two dots.
-/
namespace SparqlConformance

open Text Symbolic

namespace NTriples

section Local

end Local

end NTriples

/-- What stands in front of a rest. -/
def front (s rest : List Char) : List Char := s.take (s.length - rest.length)

/-- The text up to a rest, with the label that it may start with left open. -/
def openLabel (s rest : List Char) : Symbolic :=
  match NTriples.readBlank s with
  | some (label, back) => .inr label :: ofText (front back rest)
  | none => ofText (front s rest)

/-- The text of a triple with the labels of its subject and its object left open. -/
def openTriple (s : List Char) : Symbolic :=
  let subject := NTriples.skipSpace s
  match NTriples.readSubject .strict subject with
  | none => ofText s
  | some (_, r) =>
    match NTriples.readIri .strict (NTriples.skipSpace r) with
    | none => ofText s
    | some (_, r) =>
      let object := NTriples.skipSpace r
      ofText (front s subject) ++ openLabel subject object ++ openLabel object []

example : fill (fun l => "n-" ++ l) (openTriple "_:x <a:p> \"_:x\"@en .".toList) =
    "_:n-x <a:p> \"_:x\"@en .".toList := by cbv

namespace NTriples

variable {f : String → String}

end NTriples

end SparqlConformance
