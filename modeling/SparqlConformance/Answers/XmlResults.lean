import SparqlConformance.Answers.Decoded
import SparqlConformance.Format.Xml
/-!
# Results in XML

Reads results from the events of an XML text: first the head with its variables, then a truth value or
the solutions. A truth value answers at once. Solutions are read to the end of the text, which may come
early; every piece of text in an element for a term gives a term, and the last one counts.
-/
namespace SparqlConformance.XmlResults

open Xml (Event Attribute)

def textOf? (piece : List Char) : Option String := (Xml.pieceText? piece).map String.ofList

def isCalled (name : List Char) (tag : String) : Bool := Xml.localName name == tag.toList

/-- The value of the first attribute with a local name. -/
def named? (attributes : List Char) (name : String) : Option String :=
  (((Xml.attributes attributes).filterMap id).find? fun a => isCalled a.name name).bind fun a =>
    textOf? a.value

/-! ## Solutions -/

/-- What the reader of solutions is inside of. -/
inductive Place
  | outside
  | result
  | binding
  | iri
  | blank
  | literal
  deriving DecidableEq, Repr

structure Reader where
  vars : List String
  places : List Place
  /-- The cells of the current solution. -/
  cells : List Binding
  variableName : String
  term : Option Term
  language : Option String
  datatype : Option String
  /-- How many blank nodes without a label there were. -/
  unnamed : Nat
  /-- The finished solutions, last first. -/
  rows : List (List Binding)

namespace Reader

def inside (r : Reader) (p : Place) : Reader := { r with places := p :: r.places }

/-- Takes in the attributes of a literal; every one has to be well formed. -/
def addAttribute? (r : Reader) : Option Attribute → Option Reader
  | none => none
  | some a =>
    if a.name == "xml:lang".toList then
      (textOf? a.value).map fun v => { r with language := some v }
    else if a.name == "datatype".toList then
      ((textOf? a.value).bind fun v => (iriTerm? v).map fun _ => v).map fun v =>
        { r with datatype := some v }
    else some r

def startTerm? (r : Reader) (name attributes : List Char) : Option Reader :=
  if r.term.isSome then none
  else if isCalled name "uri" then some (r.inside .iri)
  else if isCalled name "bnode" then some (r.inside .blank)
  else if isCalled name "literal" then
    ((Xml.attributes attributes).foldlM addAttribute? r).map fun r => r.inside .literal
  else none

def start? (r : Reader) (name attributes : List Char) : Option Reader :=
  match r.places with
  | .outside :: _ => if isCalled name "result" then some ({ r with cells := [] }.inside .result) else none
  | .result :: _ =>
    if isCalled name "binding" then
      match named? attributes "name" with
      | some v => if v ∈ r.vars then some ({ r with variableName := v }.inside .binding) else none
      | none => none
    else none
  | .binding :: _ => r.startTerm? name attributes
  | _ => none

/-- Makes a literal of a text, which uses up the language and the datatype. -/
def literal? (r : Reader) (value : String) : Option Reader :=
  (literalOf? value r.language r.datatype).map fun l =>
    { r with term := some (.literal l), language := none, datatype := none }

def text? (r : Reader) (piece : List Char) : Option Reader :=
  match r.places, textOf? piece with
  | .iri :: _, some v => (iriTerm? v).map fun t => { r with term := some t }
  | .blank :: _, some v => (blankTerm? v).map fun t => { r with term := some t }
  | .literal :: _, some v => r.literal? v
  | _, _ => none

/-- Ends the innermost element. An empty literal has no text, and a blank node without a label is like
no other. -/
def finish? (r : Reader) : Option Reader :=
  match r.places with
  | [] => none
  | place :: places =>
    let r := { r with places }
    match place with
    | .outside | .iri => some r
    | .result => some { r with rows := r.cells :: r.rows, cells := [] }
    | .binding =>
      let others := r.cells.filter fun c => c.1 != r.variableName
      some { r with
        cells := others ++ r.term.toList.map fun t => (r.variableName, t)
        term := none }
    | .blank =>
      if r.term.isSome then some r
      else some { r with term := some (.blank s!"unnamed-{r.unnamed}"), unnamed := r.unnamed + 1 }
    | .literal => if r.term.isSome then some r else r.literal? ""

def step? (r : Reader) : Event → Option Reader
  | .start name attributes => r.start? name attributes
  | .finish _ => r.finish?
  | .text piece => r.text? piece
  | .cdata | .fault => none

end Reader

def readSolutions (vars : List String) (events : List Event) : Option Decoded :=
  let reader : Reader := ⟨vars, [.outside, .outside], [], "", none, none, none, 0, []⟩
  (events.foldlM Reader.step? reader).map fun r => .ofRows vars r.rows.reverse

/-! ## Head -/

inductive Stage
  | document
  | root
  | head
  | afterHead
  | boolean
  deriving DecidableEq, Repr

def read? (stage : Stage) (vars : List String) : List Event → Option Decoded
  | [] => none
  | e :: rest =>
    match stage, e with
    | .document, .start name _ => if isCalled name "sparql" then read? .root vars rest else none
    | .root, .start name _ => if isCalled name "head" then read? .head vars rest else none
    | .head, .start name attributes =>
      if isCalled name "variable" then
        match (named? attributes "name").bind (declareNew? vars) with
        | some vars => read? .head vars rest
        | none => none
      else if isCalled name "link" then read? .head vars rest
      else none
    | .head, .finish name =>
      read? (if isCalled name "head" then .afterHead else .head) vars rest
    | .afterHead, .start name _ =>
      if isCalled name "boolean" then read? .boolean vars rest
      else if isCalled name "results" then readSolutions vars rest
      else none
    | .boolean, .text piece =>
      match textOf? piece with
      | some "true" => some (.truth true)
      | some "false" => some (.truth false)
      | _ => none
    | _, _ => none

end SparqlConformance.XmlResults

namespace SparqlConformance

/-- Reads results in XML from undecoded text. -/
def readXmlResults (content : List Char) : Except AnswerError Decoded :=
  Decoded.ofOption (XmlResults.read? .document [] (Xml.events content))

end SparqlConformance
