import SparqlConformance.Answers.Cardinality
import SparqlConformance.Answers.Csv
import SparqlConformance.Answers.JsonResults
import SparqlConformance.Answers.ResultsDocument
import SparqlConformance.Answers.SortedGraph
import SparqlConformance.Answers.Tsv
import SparqlConformance.Answers.XmlResults
import SparqlConformance.Engine.Format
import SparqlConformance.Files.Path
import SparqlConformance.Query.Outline
/-!
# Answers

What a query can answer with, in the form in which answers are compared, and how answers are read from
documents.
-/
namespace SparqlConformance

inductive AnswerKind
  | graph
  | solutions
  | truth
  | document
  deriving DecidableEq, Repr, Inhabited

namespace AnswerKind

def name : AnswerKind → String
  | graph => "graph"
  | solutions => "bindings"
  | truth => "boolean"
  | document => "structured document"

/-- The kind of answer that a test is compared on. Documents are only compared as such when an engine
that prints JSON has to give exactly the expected `.srj` file. -/
def ofTest (query : QueryOutline) (format : OutputFormat) (expected : Option Path)
    (cardinality : Cardinality) : AnswerKind :=
  if query.form.returnsGraph then graph
  else if query.form = .ask then truth
  else if format = .srj ∧ cardinality = .strict ∧ expected.bind Path.extension? = some "srj" then
    document
  else solutions

end AnswerKind

inductive Answer
  | graph (g : SortedGraph)
  | solutions (s : Solutions)
  | truth (value : Bool)
  | document (d : ResultsDocument)
  deriving DecidableEq

namespace Answer

def kind : Answer → AnswerKind
  | graph _ => .graph
  | solutions _ => .solutions
  | truth _ => .truth
  | document _ => .document

def ofDecoded (ordered : Bool) : Decoded → Answer
  | .solutions s => solutions (s.withOrder ordered)
  | .truth value => truth value

/-- An answer as it is shown to people. -/
def text : Answer → String
  | graph g => String.join (g.lines.map (· ++ "\n"))
  | solutions s => String.join ((s.canonicalLines s.vars).map (· ++ "\n"))
  | truth value => toString value ++ "\n"
  | document d => d.text ++ "\n"

end Answer

/-- The formats of expected answers. -/
inductive DocumentFormat
  | xml
  | json
  | csv
  | tsv
  /-- An RDF document, which needs to be converted first. -/
  | rdf
  deriving DecidableEq, Repr, Inhabited

/-- The format that an extension stands for. -/
def DocumentFormat.ofPath (path : Path) : DocumentFormat :=
  match path.extension?.map lowerAscii with
  | some "srx" | some "xml" => xml
  | some "srj" | some "json" => json
  | some "csv" => csv
  | some "tsv" => tsv
  | _ => rdf

namespace Answer

/-- The white space of documents in bytes. -/
def isBlankByte (b : UInt8) : Bool :=
  b == 0x20 || b == 0x09 || b == 0x0A || b == 0x0C || b == 0x0D

/-- The answer of a document without content, unless a truth value is asked for. -/
def ofNothing? (kind : AnswerKind) (ordered : Bool) : Option Answer :=
  match kind with
  | .truth => none
  | .document => some (document .empty)
  | .graph | .solutions => some (solutions (Solutions.empty.withOrder ordered))

def decodedText (content : List UInt8) : String := String.ofList (Utf8.decodeLossy content)

def ofContent (content : List UInt8) (format : DocumentFormat) (kind : AnswerKind)
    (ordered : Bool) : Except AnswerError Answer :=
  let undecoded := Utf8.undecoded content
  match format, kind with
  | .csv, .truth | .tsv, .truth => (readCsvTruth (decodedText content)).map truth
  | .csv, _ => (readCsv (decodedText content)).map fun s => solutions (s.withOrder ordered)
  | .tsv, _ => (readTsv undecoded).map (ofDecoded ordered)
  | .json, .document => (ResultsDocument.ofText undecoded ordered).map document
  | .json, _ => (readJsonResults undecoded).map (ofDecoded ordered)
  | .xml, _ => (readXmlResults undecoded).map (ofDecoded ordered)
  | .rdf, _ => .error .needsConversion

/-- Reads a document that needs no conversion. -/
def ofDocument (content : List UInt8) (format : DocumentFormat) (kind : AnswerKind)
    (ordered : Bool) : Except AnswerError Answer :=
  match if content.all isBlankByte then ofNothing? kind ordered else none with
  | some answer => .ok answer
  | none => ofContent content format kind ordered

end Answer

end SparqlConformance
