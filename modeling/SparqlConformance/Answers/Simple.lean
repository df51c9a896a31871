import SparqlConformance.Answers.Csv
import SparqlConformance.Answers.Error
import SparqlConformance.Rdf.Written
import SparqlConformance.Text.Lines
/-!
# Debug output

What an engine prints for people: one line `row: [name=value, ...]` for each solution, or a line with a
truth value. Values come in several forms; the first form that a value begins like decides how the rest
of it is read.
-/
namespace SparqlConformance.Simple

open Text

/-- The length of a quoted literal at the start of a text, its tag or datatype included. -/
def quotedLength (escaped : Bool) (n : Nat) : List Char → Option (Nat × List Char)
  | [] => none
  | c :: r =>
    if escaped then quotedLength false (n + 1) r
    else if c = '\\' then quotedLength true (n + 1) r
    else if c = '"' then some (n + 1, r)
    else quotedLength false (n + 1) r

/-- Cuts off the literal that a text begins with. -/
def cutLiteral (s : List Char) : Except LineFault (List Char × List Char) :=
  match s with
  | '"' :: r =>
    match quotedLength false 1 r with
    | none => .error (.unterminated "string")
    | some (n, '@' :: rest) =>
      let tag := rest.takeWhile fun c => c.isAlphanum || c == '-'
      .ok (s.splitAt (n + 1 + tag.length))
    | some (n, '^' :: '^' :: '<' :: rest) =>
      match cutFirst '>' rest with
      | some (datatype, _) => .ok (s.splitAt (n + 3 + datatype.length + 1))
      | none => .error (.unterminated "datatype")
    | some (n, _) => .ok (s.splitAt n)
  | _ => .error (.expectingLiteral (String.ofList s))

def shorthandType? (name : List Char) : Option String :=
  match String.ofList name with
  | "integer" => some "integer"
  | "decimal" => some "decimal"
  | "double" => some "double"
  | "float" => some "float"
  | "boolean" => some "boolean"
  | "datetime" | "dateTime" => some "dateTime"
  | "date" => some "date"
  | _ => none

def blankNode (label rest : List Char) : Except LineFault (Option Term × List Char) :=
  if isBlankLabel label then .ok (some (.blank (String.ofList label)), rest) else .error .badTerm

def iriNode (iri rest : List Char) : Except LineFault (Option Term × List Char) :=
  if Iri.isAbsolute iri then .ok (some (.iri (String.ofList iri)), rest) else .error .badTerm

def literalNode (text rest : List Char) : Except LineFault (Option Term × List Char) :=
  match Literal.ofQuoted? text with
  | some l => .ok (some (.literal l), rest)
  | none => .error .badTerm

/-- An IRI whose closing bracket may be missing. -/
def readIri (what : String) (s : List Char) : Except LineFault (Option Term × List Char) :=
  match cutFirst '>' s with
  | some (iri, rest) => iriNode iri rest
  | none => .error (.unterminated what)

/-- A value such as `integer(5)`. -/
def readTyped (s : List Char) : Except LineFault (Option Term × List Char) :=
  match cutFirst '(' s with
  | none => .error (.unsupported (String.ofList s))
  | some (function, r) =>
    match shorthandType? function with
    | none => .error (.unsupported (String.ofList s))
    | some datatype =>
      match cutFirst ')' r with
      | none => .error (.unterminated "typed value")
      | some (lexical, rest) =>
        .ok (some (.literal (.typed (String.ofList lexical)
          ("http://www.w3.org/2001/XMLSchema#" ++ datatype))), rest)

def readString (s : List Char) : Except LineFault (Option Term × List Char) :=
  match cutLiteral s with
  | .error e => .error e
  | .ok (text, ')' :: rest) => literalNode text rest
  | .ok _ => .error (.unterminated "string(")

def readQuoted (s : List Char) : Except LineFault (Option Term × List Char) :=
  match cutLiteral s with
  | .error e => .error e
  | .ok (text, rest) => literalNode text rest

def readLabel (s : List Char) : Except LineFault (Option Term × List Char) :=
  let (label, rest) := s.span fun c => !(c == ',' || isSpace c)
  blankNode label rest

/-- Reads one value, none for an unbound variable, and gives what follows it. -/
def readValue (s : List Char) : Except LineFault (Option Term × List Char) :=
  let s := trimStart s
  let after (start : String) := stripStart start.toList s
  if let some rest := after "NULL" then .ok (none, rest)
  else if let some rest := after "UNDEF" then .ok (none, rest)
  else if let some rest := after "uri<" then readIri "uri<" rest
  else if let some rest := after "blank _:" then readLabel rest
  else if let some rest := after "_:" then readLabel rest
  else if let some rest := after "blank(" then
    match cutFirst ')' rest with
    | some (label, rest) => blankNode label rest
    | none => .error (.unterminated "blank(")
  else if let some rest := after "string(" then readString rest
  else if s.head? = some '"' then readQuoted s
  else if let some rest := after "<" then readIri "IRI" rest
  else readTyped s

/-- Reads the pairs between the brackets; every pair takes at least one character. -/
def readPairs (fuel : Nat) (s : List Char) : Except LineFault (List Binding) :=
  match fuel with
  | 0 => .ok []
  | fuel + 1 =>
    if (trim s).isEmpty then .ok []
    else match cutFirst '=' s with
    | none => .error (.expectingPair (String.ofList s))
    | some (name, rest) => do
      let (value, rest) ← readValue rest
      let rest := trimStart rest
      let next ← match rest with
        | ',' :: r => .ok r
        | [] => .ok []
        | _ => .error (.trailing (String.ofList rest))
      let cells ← readPairs fuel next
      .ok (match value with
        | some t => (variableName name, t) :: cells
        | none => cells)

def readRow (s : List Char) : Except LineFault Solution :=
  (readPairs (s.length + 1) s).map Solution.ofPairs

/-- What stands between the brackets of a line that is a row. -/
def rowOfLine? (line : List Char) : Option (List Char) :=
  match stripStart "row:".toList (trim line) with
  | none => none
  | some r =>
    match trimStart r with
    | '[' :: r => stripEnd [']'] r
    | _ => none

/-- Reads rows from numbered lines; lines that are no rows are left out. -/
def readRows (number : Nat) : List (List Char) → Except AnswerError (List Solution)
  | [] => .ok []
  | line :: rest =>
    match rowOfLine? line with
    | none => readRows (number + 1) rest
    | some row =>
      match readRow row with
      | .error fault => .error (.line number fault)
      | .ok row => (readRows (number + 1) rest).map (row :: ·)

end Simple

/-- Reads the solutions printed in debug format. -/
def readSimple (text : String) : Except AnswerError Solutions :=
  (Simple.readRows 1 (Text.lines text.toList)).map Solutions.empty.pushAll

namespace Simple

open Text

/-- What follows the last occurrence of a text. -/
def afterLast (pat : List Char) (s : List Char) : Option (List Char) :=
  (cutAt pat.reverse s.reverse).map fun (after, _) => after.reverse

def truthOfLine? (line : List Char) : Option Bool :=
  let line := trim line
  let value := ((stripStart "boolean:".toList line).orElse
    fun _ => afterLast "boolean result:".toList line).getD line
  match String.ofList (trim value) with
  | "true" => some true
  | "false" => some false
  | _ => none

end Simple

/-- Reads a truth value printed in debug format. -/
def readSimpleTruth (text : String) : Except AnswerError Bool :=
  match (Text.lines text.toList).findSome? Simple.truthOfLine? with
  | some b => .ok b
  | none => .error .noBooleanResult

end SparqlConformance
