import SparqlConformance.Answers.Answer
import SparqlConformance.Diff.Unified
/-!
# Comparison

Whether the answer of an engine is the expected one, and what to tell about it when it is not. Answers
are compared by their lines.
-/
namespace SparqlConformance

inductive Comparison
  | same
  | differ (explanation : String)
  deriving DecidableEq, Repr, Inhabited

namespace Comparison

def isSame : Comparison → Bool
  | same => true
  | differ _ => false

def explanation? : Comparison → Option String
  | same => none
  | differ explanation => some explanation

def ofLines (expected actual : List String) : Comparison :=
  if expected = actual then same else differ (Diff.unified expected actual)

/-- Lax tests accept any solutions as long as there are not too many. -/
def ofSolutions (actual expected : Solutions) (cardinality : Cardinality) : Comparison :=
  if cardinality = .lax ∧ actual.size ≤ expected.size then same
  else
    let (expected, actual) := canonicalPair expected actual
    ofLines expected actual

def ofTruth (actual expected : Bool) : Comparison :=
  if actual = expected then same else differ s!"expected {expected}, got {actual}"

end Comparison

namespace Answer

def compare (actual expected : Answer) (cardinality : Cardinality) : Comparison :=
  match actual, expected with
  | graph a, graph e => .ofLines e.lines a.lines
  | solutions a, solutions e => .ofSolutions a e cardinality
  | truth a, truth e => .ofTruth a e
  | document a, document e => .ofLines e.lines a.lines
  | actual, expected =>
    .differ s!"expected a {expected.kind.name} result, got a {actual.kind.name} result"

end Answer

end SparqlConformance
