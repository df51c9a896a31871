import SparqlConformance.Answers.Decoded
import SparqlConformance.Answers.Error
import SparqlConformance.Number.Power
import SparqlConformance.Rdf.TripleIndex
import SparqlConformance.Rdf.Vocabulary
/-!
# Result set graphs

Results written as an RDF graph with the result set vocabulary. Solutions that carry an index come
first, in the order of their indexes; the others keep their places after them.
-/
namespace SparqlConformance

open Vocab (resultSet)

namespace ResultSet

/-- The node that stands for the result set. -/
def node? (index : TripleIndex) : Option Term :=
  let isSet (s : Term) := index.contains s (Vocab.rdf "type") (.iri (resultSet "ResultSet"))
  (index.subjects.find? isSet)
    <|> (index.subjectsWith (resultSet "boolean")).head?
    <|> (index.subjectsWith (resultSet "resultVariable")).head?
    <|> (index.subjectsWith (resultSet "solution")).head?

def truth : Term → Except AnswerError Bool
  | .literal l =>
    if l.value = "true" ∨ l.value = "1" then .ok true
    else if l.value = "false" ∨ l.value = "0" then .ok false
    else .error (.badBoolean l.value)
  | t => .error (.badBoolean t.text)

def vars (index : TripleIndex) (node : Term) : List String :=
  (index.objects node (resultSet "resultVariable")).filterMap fun
    | .literal l => some l.value
    | _ => none

/-- The variable and the value of a binding node. -/
def binding? (index : TripleIndex) (node : Term) : Option Binding :=
  match index.object? node (resultSet "variable") with
  | some (.literal v) => (index.object? node (resultSet "value")).map fun t => (v.value, t)
  | _ => none

def row (index : TripleIndex) (solution : Term) : Solution :=
  Solution.ofPairs ((index.objects solution (resultSet "binding")).filterMap (binding? index))

/-- The index of a solution, an unsigned 64 bit number. -/
def position (index : TripleIndex) (solution : Term) : Except AnswerError (Option Nat) :=
  match index.object? solution (resultSet "index") with
  | some (.literal l) =>
    match Text.decimalBelow? (twoTo 64) l.value.toList with
    | some n => .ok (some n)
    | none => .error (.badIndex l.value)
  | _ => .ok none

/-- Solutions with an index stand before solutions without. -/
def comesBefore : Option Nat → Option Nat → Bool
  | some a, some b => a ≤ b
  | some _, none => true
  | none, some _ => false
  | none, none => true

def solutions (index : TripleIndex) (node : Term) : Except AnswerError (List (Option Nat × Solution)) :=
  (index.objects node (resultSet "solution")).mapM fun s => do
    let p ← position index s
    pure (p, row index s)

end ResultSet

/-- Decodes results written with the result set vocabulary. -/
def ofResultSetGraph (index : TripleIndex) : Except AnswerError Decoded :=
  match ResultSet.node? index with
  | none => .error (.noResultSet index.source)
  | some node =>
    match index.object? node (resultSet "boolean") with
    | some value => (ResultSet.truth value).map .truth
    | none => do
      let solutions ← ResultSet.solutions index node
      let sorted := solutions.mergeSort fun a b => ResultSet.comesBefore a.1 b.1
      let start := Solutions.ofVariables (ResultSet.vars index node)
      .ok (.solutions (start.pushAll (sorted.map Prod.snd)))

end SparqlConformance
