import SparqlConformance.Answers.Decoded
import SparqlConformance.Rdf.Written
import SparqlConformance.Text.Utf8
/-!
# Results in TSV

A header line of variables and a line for each solution, with terms as Turtle writes them and nothing
for an unbound variable; or one line with a truth value.
-/
namespace SparqlConformance.TsvResults

open Text

def trimLine (s : List Char) : List Char :=
  let isEdge (c : Char) : Bool := c == ' ' || c == '\r' || c == '\n'
  ((s.dropWhile isEdge).reverse.dropWhile isEdge).reverse

def markedName? (s : List Char) : Option String :=
  match trim s with
  | '?' :: r | '$' :: r => some (String.ofList r)
  | _ => none

def header? (line : List Char) : Option (List String) :=
  if line.isEmpty then some []
  else (splitAt '\t' line).foldlM
    (fun vars s => (markedName? s).bind (declareNew? vars)) []

/-- The terms of a line; an empty field stands for none. -/
def fields? (line : List Char) : Option (List (Option Term)) :=
  (splitAt '\t' line).mapM fun s =>
    let s := trim s
    if s.isEmpty then some none else (Term.ofWritten? s).map some

def row? (vars : List String) (line : List Char) : Option (List Binding) :=
  match fields? line with
  | none => none
  | some fields =>
    if fields.length = vars.length then
      some ((vars.zip fields).filterMap fun (v, t) => t.map fun t => (v, t))
    else if vars.isEmpty && fields == [none] then some []
    else none

def lines (content : List Char) : List (List Char) :=
  let pieces := splitAt '\n' content
  if pieces.getLast? = some [] then pieces.dropLast else pieces

def read? (content : List Char) : Option Decoded :=
  let all := lines content
  match Utf8.decodePiece? (all.headD []) with
  | none => none
  | some first =>
    let first := trimLine first
    let word := String.ofList (first.map Char.toLower)
    if word = "true" then some (.truth true)
    else if word = "false" then some (.truth false)
    else match header? first with
    | none => none
    | some vars =>
      (all.tail.mapM fun line => (Utf8.decodePiece? line).bind (row? vars)).map
        (.ofRows vars)

end SparqlConformance.TsvResults

namespace SparqlConformance

/-- Reads results in TSV from undecoded text. -/
def readTsv (content : List Char) : Except AnswerError Decoded :=
  Decoded.ofOption (TsvResults.read? content)

end SparqlConformance
