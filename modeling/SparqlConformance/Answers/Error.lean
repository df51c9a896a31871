/-!
# Errors of result documents

Why a query result can not be read. Errors that a format's own grammar raises carry no detail; the
others say where and what.
-/
namespace SparqlConformance

/-- What is wrong with one line of a text. -/
inductive LineFault
  | noTriple
  | badTriple
  | badTerm
  | expectingPair (rest : String)
  | trailing (rest : String)
  | unterminated (what : String)
  | expectingLiteral (text : String)
  | unsupported (text : String)
  deriving DecidableEq, Repr

def LineFault.message : LineFault → String
  | noTriple => "no triple"
  | badTriple => "malformed triple"
  | badTerm => "malformed term"
  | expectingPair rest => "expecting name=value in '" ++ rest ++ "'"
  | trailing rest => "unexpected '" ++ rest ++ "' after value"
  | unterminated what => "unterminated " ++ what
  | expectingLiteral text => "expecting a quoted literal in '" ++ text ++ "'"
  | unsupported text => "unsupported value '" ++ text ++ "'"

inductive AnswerError
  | unreadable
  | badDocument
  | badCsv
  | badJson
  | line (number : Nat) (fault : LineFault)
  | noBooleanResult
  | noBooleanValue
  | csvRow (line values vars : Nat)
  | notAnObject
  | needsConversion
  | noResultSet (source : String)
  | badBoolean (text : String)
  | badIndex (text : String)
  | notConverted (path reason : String)
  | converterFailed (program path : String) (code : Int) (output : String)
  deriving DecidableEq, Repr

def AnswerError.message : AnswerError → String
  | unreadable => "the document can not be opened"
  | badDocument => "malformed results document"
  | badCsv => "malformed CSV"
  | badJson => "malformed JSON"
  | line n fault => "line " ++ toString n ++ ": " ++ fault.message
  | noBooleanResult => "no boolean result found"
  | noBooleanValue => "no boolean value found"
  | csvRow l n m =>
    "CSV row " ++ toString l ++ " has " ++ toString n ++ " values for " ++ toString m ++ " variables"
  | notAnObject => "the results document is not a JSON object"
  | needsConversion => "RDF result documents need to be converted first"
  | noResultSet source => source ++ " does not contain a rs:ResultSet"
  | badBoolean text => "invalid rs:boolean value " ++ text
  | badIndex text => "invalid rs:index value " ++ text
  | notConverted path reason => "can not convert " ++ path ++ ": " ++ reason
  | converterFailed program path code output =>
    program ++ " failed on " ++ path ++ " with exit code " ++ toString code ++ ": " ++ output

end SparqlConformance
