import SparqlConformance.Answers.Error
import SparqlConformance.Answers.Solutions
import SparqlConformance.Format.Csv
import SparqlConformance.Text.Lines
/-!
# Delimited results

SPARQL results in CSV, and truth values written as one value under an optional header line. CSV does
not tell kinds of terms apart, so a value is taken for what it looks like.
-/
namespace SparqlConformance

/-- A variable as written in a header or a row: white space and leading marks are left out. -/
def variableName (s : List Char) : String :=
  String.ofList ((Text.trim s).dropWhile fun c => c == '?' || c == '$')

def csvBindings (vars : List String) (fields : List String) : List Binding :=
  (vars.zip fields).filterMap fun (v, field) => (csvTerm? field).map fun t => (v, t)

/-- Adds the rows of the records, which may be shorter than the header but not longer. -/
def pushRecords (vars : List String) (b : Solutions) :
    List Csv.Record → Except AnswerError Solutions
  | [] => .ok b
  | r :: rs =>
    if vars.length < r.fields.length then
      .error (.csvRow r.line r.fields.length vars.length)
    else pushRecords vars (b.push (Solution.ofPairs (csvBindings vars r.fields))) rs

/-- Reads SPARQL results CSV. -/
def readCsv (text : String) : Except AnswerError Solutions :=
  let records := Csv.records text.toList
  let vars := match records with
    | [] => []
    | r :: _ => (r.fields.map fun f => variableName f.toList).filter fun v => !v.isEmpty
  pushRecords vars ((Solutions.ofVariables vars).withFidelity .csv) records.tail

def trimQuotes (s : List Char) : List Char :=
  ((s.dropWhile (· == '"')).reverse.dropWhile (· == '"')).reverse

def truthValue? (s : List Char) : Option Bool :=
  let word := String.ofList ((trimQuotes s).map Char.toLower)
  if word = "true" ∨ word = "1" then some true
  else if word = "false" ∨ word = "0" then some false
  else none

/-- The first line that is a truth value. -/
def readCsvTruth (text : String) : Except AnswerError Bool :=
  match (Text.lines text.toList).findSome? fun l => truthValue? (Text.trim l) with
  | some b => .ok b
  | none => .error .noBooleanValue

end SparqlConformance
