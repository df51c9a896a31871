import SparqlConformance.Answers.Answer
import SparqlConformance.Answers.ResultSetGraph
import SparqlConformance.Answers.Simple
import SparqlConformance.Manifest.Conversion
/-!
# Reading answers

The answer of an engine is read from what it printed, the expected one from a file. RDF documents go
through the converter; graphs that an engine prints in Turtle are put into a temporary file for that.
-/
namespace SparqlConformance

variable {σ : Type}

/-- What the converter printed about a file. -/
def convertedText (converter : Converter) (path : Path) :
    Except LaunchError Completion → Except AnswerError String
  | .error e => .error (.notConverted path.text e.message)
  | .ok c =>
    if c.succeeded then .ok c.stdout
    else .error (.converterFailed converter.tool.program path.text c.exitCode (trimText c.stderr))

def convert (w : World σ) (converter : Converter) (path : Path) :
    StateM σ (Except AnswerError String) := do
  return convertedText converter path (← w.call false (converter.command path))

namespace Answer

def ofGraphText (ntriples : String) : Except AnswerError Answer :=
  (SortedGraph.ofNTriples ntriples).map graph

/-- The answer of an RDF document: the graph itself, or what it says about a result set. -/
def ofConverted (path : Path) (kind : AnswerKind) (ordered : Bool) (ntriples : String) :
    Except AnswerError Answer :=
  if kind = .graph then ofGraphText ntriples
  else (ofResultSetGraph (.ofNTriples path.text ntriples)).map (ofDecoded ordered)

/-- The answer that a file holds. -/
def expected (w : World σ) (converter : Converter) (path : Path) (kind : AnswerKind)
    (ordered : Bool) : StateM σ (Except AnswerError Answer) := do
  let format := DocumentFormat.ofPath path
  if format = .rdf then
    return (← convert w converter path).bind (ofConverted path kind ordered)
  else
    match (← w.view).content? path with
    | none => return .error .unreadable
    | some content => return ofDocument content format kind ordered

def turtleFile : TemporaryName := ⟨"sparqlcheck-actual-", ".ttl"⟩

/-- The answer that an engine printed in Turtle. -/
def ofTurtle (w : World σ) (converter : Converter) (output : String) :
    StateM σ (Except AnswerError Answer) := do
  match ← w.createTemporary none turtleFile (Utf8.encode output.toList) with
  | .error _ => return .error .unreadable
  | .ok path =>
    let ntriples ← convert w converter path
    w.remove path
    return ntriples.bind ofGraphText

/-- Reads what was printed in any format but Turtle. -/
def ofOutput (output : String) (format : OutputFormat) (kind : AnswerKind) (ordered : Bool) :
    Except AnswerError Answer :=
  let document (format : DocumentFormat) := ofDocument (Utf8.encode output.toList) format kind ordered
  match format, kind with
  | .ntriples, _ | .turtle, _ | .simple, .graph => ofGraphText output
  | .simple, .truth => (readSimpleTruth output).map truth
  | .simple, _ => (readSimple output).map fun s => solutions (s.withOrder ordered)
  | .csv, _ => document .csv
  | .tsv, _ => document .tsv
  | .srj, _ => document .json
  | .xml, _ => document .xml

/-- The answer that an engine printed. -/
def actual (w : World σ) (converter : Converter) (output : String) (format : OutputFormat)
    (kind : AnswerKind) (ordered : Bool) : StateM σ (Except AnswerError Answer) :=
  if format = .turtle then ofTurtle w converter output
  else return ofOutput output format kind ordered

end Answer

end SparqlConformance
