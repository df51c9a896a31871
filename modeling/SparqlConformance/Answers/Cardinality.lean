/-!
# Cardinality

How strictly the number of solutions is checked.
-/
namespace SparqlConformance

inductive Cardinality
  /-- The engine has to give the expected solutions. -/
  | strict
  /-- The engine may give fewer solutions, but not more. -/
  | lax
  deriving DecidableEq, Repr, Inhabited

end SparqlConformance
