import SparqlConformance.Text.CharClass
/-!
# RDF terms

Terms, triples and their written form. Nothing here checks that an IRI, a label or a language tag is
well formed: terms may come from callers that promise nothing.
-/
namespace SparqlConformance

/-- The datatype that is never written. -/
def xsdString : String := "http://www.w3.org/2001/XMLSchema#string"

/-- A literal; `typed` never carries the datatype of plain strings when built with `ofDatatype`. -/
inductive Literal
  | plain (value : String)
  | tagged (value language : String)
  | typed (value datatype : String)
  deriving DecidableEq, Repr, Inhabited

namespace Literal

def ofDatatype (value datatype : String) : Literal :=
  if datatype = xsdString then .plain value else .typed value datatype

/-- The lexical form. -/
def value : Literal → String
  | plain v | tagged v _ | typed v _ => v

end Literal

inductive Term
  | iri (text : String)
  | blank (label : String)
  | literal (content : Literal)
  deriving DecidableEq, Repr, Inhabited

structure Triple where
  subject : Term
  predicate : String
  object : Term
  deriving DecidableEq, Repr, Inhabited

/-- One character of a lexical form as it stands between the quotes. -/
def escapeChar (c : Char) : List Char :=
  if c = '\x08' then ['\\', 'b']
  else if c = '\t' then ['\\', 't']
  else if c = '\n' then ['\\', 'n']
  else if c = '\x0c' then ['\\', 'f']
  else if c = '\r' then ['\\', 'r']
  else if c = '"' then ['\\', '"']
  else if c = '\\' then ['\\', '\\']
  else if c.toNat < 0x20 ∨ c.toNat = 0x7F ∨ c.toNat = 0xFFFE ∨ c.toNat = 0xFFFF then
    '\\' :: 'u' :: (Text.hexByte (c.toNat / 256) ++ Text.hexByte c.toNat)
  else [c]

def quoted (s : List Char) : List Char := '"' :: (s.flatMap escapeChar ++ ['"'])

def angled (iri : List Char) : List Char := '<' :: (iri ++ ['>'])

namespace Literal

def render : Literal → List Char
  | plain v => quoted v.toList
  | tagged v l => quoted v.toList ++ '@' :: l.toList
  | typed v d => quoted v.toList ++ '^' :: '^' :: angled d.toList

def text (l : Literal) : String := String.ofList l.render

end Literal

namespace Term

/-- The written form: `<iri>`, `_:label` or a quoted literal. -/
def render : Term → List Char
  | iri t => angled t.toList
  | blank l => '_' :: ':' :: l.toList
  | literal l => l.render

def text (t : Term) : String := String.ofList t.render

def plain (value : String) : Term := .literal (.plain value)

end Term

/-- A triple as one line, without the line end. -/
def Triple.render (t : Triple) : List Char :=
  t.subject.render ++ ' ' :: angled t.predicate.toList ++ ' ' :: t.object.render ++ [' ', '.']

/-- Triples as lines, each ended by a line feed. -/
def Triple.document (ts : List Triple) : String :=
  String.ofList (ts.flatMap fun t => t.render ++ ['\n'])

end SparqlConformance
