import SparqlConformance.Proofs.IndexedTriples
import SparqlConformance.Proofs.JoinedPaths
/-!
# Indexes as lists of triples

An index tells nothing but what a search through the list of its triples would tell, from the first that was
put in to the last. The list of a text is read line by line: each line is read on its own, and a line
without a triple leaves no trace.
-/
namespace SparqlConformance

open Text

/-- A piece between line feeds is a line, with or without a carriage return behind it. -/
def IsPieceOf (line piece : List Char) : Prop := piece = line ∨ piece = line ++ ['\r']

theorem IsPieceOf.cons {line piece : List Char} (c : Char) (h : IsPieceOf line piece) :
    IsPieceOf (c :: line) (c :: piece) :=
  h.imp (congrArg (c :: ·)) (congrArg (c :: ·))

namespace TripleIndex

theorem Holds.objects {index : TripleIndex} {ts : List Triple} (h : index.Holds ts) (s : Term)
    (p : String) : index.objects s p = objectsIn ts s p := by
  rw [TripleIndex.objects, h.properties, List.filter_map, List.map_map, List.filter_filter, objectsIn]
  refine congrArg _ (List.filter_congr fun t _ => ?_)
  rw [Bool.eq_iff_iff]
  simp [Triple.property, and_comm]

theorem Holds.object? {index : TripleIndex} {ts : List Triple} (h : index.Holds ts) (s : Term)
    (p : String) : index.object? s p =
      (ts.find? fun t => t.subject = s ∧ t.predicate = p).map Triple.object := by
  rw [TripleIndex.object?, h.objects, objectsIn, List.head?_map, List.head?_filter]

end TripleIndex

end SparqlConformance
