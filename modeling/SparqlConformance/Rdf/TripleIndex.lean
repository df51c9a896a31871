import SparqlConformance.Rdf.NTriples
import SparqlConformance.Text.Lines
/-!
# Triple index

The triples of one document by subject. Subjects stand in the order in which they were first seen, and
the pairs of a subject in document order, repeats included.
-/
namespace SparqlConformance

/-- A predicate and an object. -/
abbrev Property := String × Term

/-- Pairs under their subject, each subject once. -/
abbrev Grouping := List (Term × List Property)

namespace Grouping

def insert (g : Grouping) (subject : Term) (property : Property) : Grouping :=
  match g with
  | [] => [(subject, [property])]
  | (s, ps) :: rest =>
    if s = subject then (s, ps ++ [property]) :: rest
    else (s, ps) :: insert rest subject property

def find (g : Grouping) (subject : Term) : List Property :=
  match g with
  | [] => []
  | (s, ps) :: rest => if s = subject then ps else find rest subject

end Grouping

structure TripleIndex where
  source : String
  groups : Grouping
  deriving DecidableEq, Repr, Inhabited

namespace TripleIndex

def empty (source : String) : TripleIndex := ⟨source, []⟩

def insert (index : TripleIndex) (t : Triple) : TripleIndex :=
  { index with groups := Grouping.insert index.groups t.subject (t.predicate, t.object) }

def insertAll (index : TripleIndex) (ts : List Triple) : TripleIndex := ts.foldl insert index

theorem source_insertAll (index : TripleIndex) (ts : List Triple) :
    (index.insertAll ts).source = index.source := by
  induction ts generalizing index with
  | nil => rfl
  | cons t ts ih => exact ih (index.insert t)

/-- The triple of a line, if the line holds one. -/
def tripleOfLine (line : List Char) : Option Triple :=
  let line := Text.trim line
  if NTriples.isSilent line then none else NTriples.readTriple .lenient line

/-- The triples of a text; lines that hold no valid triple are left out. -/
def triplesOfText (ntriples : String) : List Triple :=
  (Text.lines ntriples.toList).filterMap tripleOfLine

def ofNTriples (source ntriples : String) : TripleIndex :=
  (empty source).insertAll (triplesOfText ntriples)

def size (index : TripleIndex) : Nat := index.groups.foldl (fun n g => n + g.2.length) 0

def isEmpty (index : TripleIndex) : Bool := index.size == 0

def subjects (index : TripleIndex) : List Term := index.groups.map Prod.fst

def properties (index : TripleIndex) (subject : Term) : List Property :=
  Grouping.find index.groups subject

def objects (index : TripleIndex) (subject : Term) (predicate : String) : List Term :=
  ((index.properties subject).filter fun p => p.1 == predicate).map Prod.snd

def object? (index : TripleIndex) (subject : Term) (predicate : String) : Option Term :=
  (index.objects subject predicate).head?

/-- The subjects with at least one value for the predicate. -/
def subjectsWith (index : TripleIndex) (predicate : String) : List Term :=
  index.subjects.filter fun s => (index.object? s predicate).isSome

def contains (index : TripleIndex) (subject : Term) (predicate : String) (object : Term) : Bool :=
  (index.properties subject).contains (predicate, object)

/-- The lexical form of the first value, if that is a literal. -/
def literal? (index : TripleIndex) (subject : Term) (predicate : String) : Option String :=
  match index.object? subject predicate with
  | some (.literal l) => some l.value
  | _ => none

end TripleIndex

end SparqlConformance
