import SparqlConformance.Manifest.Error
import SparqlConformance.Rdf.TripleIndex
import SparqlConformance.Rdf.Vocabulary
/-!
# Entries of a manifest

The node that carries the properties of a manifest, and the lists that it points to. A list has to end
with `rdf:nil`; cells without an item are passed over.
-/
namespace SparqlConformance.Manifest

def nil : Term := .iri (Vocab.rdf "nil")

def includeProperty : String := Vocab.manifest "include"

def entriesProperty : String := Vocab.manifest "entries"

def source (index : TripleIndex) : Path := ⟨index.source⟩

/-- The node of the manifest: the first one with entries, else the first one with includes. -/
def primaryNode (index : TripleIndex) : Except SetupError Term :=
  match (index.subjectsWith entriesProperty ++ index.subjectsWith includeProperty).head? with
  | some node => .ok node
  | none => .error (.noManifestNode (source index))

/-- The items of the list from a cell on, if it ends within a number of steps. -/
def listWithin (index : TripleIndex) : Nat → Term → Option (List Term)
  | steps, cell =>
    if cell = nil then some []
    else match steps, cell with
      | 0, _ | _, .literal _ => none
      | steps + 1, cell =>
        match index.object? cell (Vocab.rdf "rest") with
        | none => none
        | some rest =>
          (listWithin index steps rest).map ((index.object? cell (Vocab.rdf "first")).toList ++ ·)

/-- The items of a list. Every cell is a subject, so a list that goes on for longer than there are
subjects never ends. -/
def listItems (index : TripleIndex) (head : Term) : Except SetupError (List Term) :=
  match listWithin index index.subjects.length head with
  | some items => .ok items
  | none => .error (.unterminatedList (source index) head.text)

/-- The entries that the manifest itself lists. -/
def entries (index : TripleIndex) : Except SetupError (List Term) :=
  match primaryNode index with
  | .error e => .error e
  | .ok node =>
    match index.object? node entriesProperty with
    | some head => listItems index head
    | none => .ok []

/-- The items of all lists of includes, by subject and list. -/
def includes (index : TripleIndex) : Except SetupError (List Term) :=
  ((index.subjectsWith includeProperty).flatMap fun s => index.objects s includeProperty).foldlM
    (fun items head => (listItems index head).map (items ++ ·)) []

end SparqlConformance.Manifest
