import SparqlConformance.Answers.Error
import SparqlConformance.Format.Json.Value
import SparqlConformance.Rdf.Relabeling
import SparqlConformance.Text.Lines
/-!
# Results documents

SPARQL results in JSON compared as documents. A document keeps its head without links, its truth value
and its solutions; literals have one type, blank nodes are numbered once the solutions are in place, and
solutions whose order does not matter are sorted by their text without labels. A document without any
solution has no variables.
-/
namespace SparqlConformance

abbrev JsonMembers := List (String × Json)

structure ResultsDocument where
  text : String
  deriving DecidableEq, Repr, Inhabited

namespace ResultsDocument

def member? (name : String) (members : JsonMembers) : Option Json := members.lookup name

def without (name : String) (members : JsonMembers) : JsonMembers :=
  members.filter fun m => m.1 != name

def typeOf? (term : JsonMembers) : Option String :=
  match member? "type" term with
  | some (.string s) => some s
  | _ => none

/-- Changes the terms of a solution. -/
def mapTerms (f : JsonMembers → JsonMembers) : Json → Json
  | .object cells => .object (cells.map fun
    | (name, .object term) => (name, .object (f term))
    | cell => cell)
  | solution => solution

def plainType (term : JsonMembers) : JsonMembers :=
  if typeOf? term = some "typed-literal" then Members.insert "type" (.string "literal") term else term

def isBlank (term : JsonMembers) : Bool := typeOf? term == some "bnode"

/-- A blank node without its label. -/
def masked (term : JsonMembers) : JsonMembers :=
  if isBlank term then Members.insert "value" (.string "") term else term

/-- What a solution is sorted by. -/
def sortKey (solution : Json) : String := String.ofList (mapTerms masked solution).compact

/-- Numbers the label of a blank node. -/
def relabelTerm (seen : Seen) (term : JsonMembers) : JsonMembers × Seen :=
  match isBlank term, member? "value" term with
  | true, some (.string label) =>
    let (n, seen) := seen.number label
    (Members.insert "value" (.string ("b" ++ toString n)) term, seen)
  | _, _ => (term, seen)

def relabelCells (seen : Seen) : JsonMembers → JsonMembers × Seen
  | [] => ([], seen)
  | (name, .object term) :: rest =>
    let (term, seen) := relabelTerm seen term
    let (cells, seen) := relabelCells seen rest
    ((name, .object term) :: cells, seen)
  | cell :: rest =>
    let (cells, seen) := relabelCells seen rest
    (cell :: cells, seen)

def relabelSolutions (seen : Seen) : List Json → List Json
  | [] => []
  | .object cells :: rest =>
    let (cells, seen) := relabelCells seen cells
    .object cells :: relabelSolutions seen rest
  | solution :: rest => solution :: relabelSolutions seen rest

def normalize (ordered : Bool) (solutions : List Json) : List Json :=
  let solutions := solutions.map (mapTerms plainType)
  let solutions :=
    if ordered then solutions
    else ((solutions.map fun s => (sortKey s, s)).mergeSort fun a b => decide (a.1 ≤ b.1)).map Prod.snd
  relabelSolutions [] solutions

def solutions? (root : JsonMembers) : Option (List Json) :=
  match member? "results" root with
  | some (.object results) =>
    match member? "bindings" results with
    | some (.array solutions) => some solutions
    | _ => none
  | _ => none

/-- What is kept of the head; an object that has nothing else is left out. -/
def head? (root : JsonMembers) (noSolution : Bool) : Option Json :=
  match member? "head" root with
  | some (.object head) =>
    let head := without "link" head
    let head := if noSolution then without "vars" head else head
    if head.isEmpty then none else some (.object head)
  | head => head

/-- The members of a document in their canonical form. -/
def members (root : JsonMembers) (ordered : Bool) : JsonMembers :=
  let solutions := solutions? root
  let named (name : String) (value : Option Json) : JsonMembers := value.toList.map fun v => (name, v)
  named "boolean" (member? "boolean" root)
    ++ named "head" (head? root (solutions.any List.isEmpty))
    ++ named "results" (solutions.map fun s => .object [("bindings", .array (normalize ordered s))])

def ofMembers (root : JsonMembers) (ordered : Bool) : ResultsDocument :=
  ⟨String.ofList (Json.pretty 0 (.object (members root ordered)))⟩

/-- Reads a document from undecoded text. -/
def ofText (content : List Char) (ordered : Bool) : Except AnswerError ResultsDocument :=
  match Json.ofText? content with
  | none => .error .badJson
  | some (.object root) => .ok (ofMembers root ordered)
  | some _ => .error .notAnObject

/-- The document of no solutions. -/
def empty : ResultsDocument :=
  ofMembers [("results", .object [("bindings", .array [])])] false

def lines (d : ResultsDocument) : List String := linesOf d.text

end ResultsDocument

end SparqlConformance
