import SparqlConformance.Answers.Error
import SparqlConformance.Rdf.NTriples
import SparqlConformance.Rdf.Relabeling
import SparqlConformance.Text.Lines
/-!
# Canonical graphs

A graph as its sorted N-Triples lines, each once. Blank nodes are numbered in the order in which the
text names them, before the lines are sorted.
-/
namespace SparqlConformance

structure SortedGraph where
  lines : List String
  deriving DecidableEq, Repr, Inhabited

namespace SortedGraph

/-- The line of a triple with its blank nodes numbered. -/
def renderTriple (seen : Seen) (t : Triple) : String × Seen :=
  let (subject, seen) := renderNumbered 'b' seen t.subject
  let (object, seen) := renderNumbered 'b' seen t.object
  (String.ofList (subject ++ ' ' :: angled t.predicate.toList ++ ' ' :: object ++ [' ', '.']), seen)

def renderTriples : Seen → List Triple → List String
  | _, [] => []
  | seen, t :: ts =>
    let (line, seen) := renderTriple seen t
    line :: renderTriples seen ts

/-- The triples of numbered lines; every line that is not blank or a comment has to be a triple. -/
def readTriples (number : Nat) : List (List Char) → Except AnswerError (List Triple)
  | [] => .ok []
  | line :: rest =>
    let line := Text.trim line
    if NTriples.isSilent line then readTriples (number + 1) rest
    else match NTriples.readTriple .strict line with
    | none => .error (.line number .badTriple)
    | some t => (readTriples (number + 1) rest).map (t :: ·)

/-- Keeps the first of neighbours that are the same. -/
def squeeze : List String → List String
  | [] => []
  | l :: ls =>
    match squeeze ls with
    | [] => [l]
    | m :: ms => if l = m then m :: ms else l :: m :: ms

def ofTriples (ts : List Triple) : SortedGraph :=
  ⟨squeeze ((renderTriples [] ts).mergeSort fun a b => decide (a ≤ b))⟩

def ofNTriples (ntriples : String) : Except AnswerError SortedGraph :=
  (readTriples 1 (Text.lines ntriples.toList)).map ofTriples

def size (g : SortedGraph) : Nat := g.lines.length

def isEmpty (g : SortedGraph) : Bool := g.lines.isEmpty

end SortedGraph

end SparqlConformance
