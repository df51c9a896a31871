import SparqlConformance.Text.Lines
/-!
# Output formats

The formats that an engine can be asked to print results in.
-/
namespace SparqlConformance

inductive OutputFormat
  /-- One line in brackets for each solution. -/
  | simple
  | csv
  | tsv
  | srj
  | xml
  | ntriples
  | turtle
  deriving DecidableEq, Repr, Inhabited

namespace OutputFormat

def name : OutputFormat → String
  | simple => "simple"
  | csv => "csv"
  | tsv => "tsv"
  | srj => "srj"
  | xml => "xml"
  | ntriples => "ntriples"
  | turtle => "turtle"

def isGraph : OutputFormat → Bool
  | ntriples | turtle => true
  | _ => false

/-- The format of a name in any case. -/
def ofName? (name : String) : Option OutputFormat :=
  match lowerAscii name with
  | "simple" | "debug" => some simple
  | "csv" => some csv
  | "tsv" => some tsv
  | "srj" | "json" => some srj
  | "xml" | "srx" => some xml
  | "ntriples" | "nt" => some ntriples
  | "turtle" | "ttl" => some turtle
  | _ => none

def unknownMessage (name : String) : String := s!"unknown result format: {name}"

end OutputFormat

end SparqlConformance
