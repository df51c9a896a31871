import SparqlConformance.Rdf.Iri
import SparqlConformance.Rdf.NTriples
import SparqlConformance.Rdf.Names
import SparqlConformance.Rdf.Term
import SparqlConformance.Text.Space
/-!
# Written terms

Reads single terms written the way N-Triples writes them, with the number and truth value shorthands of
Turtle. IRIs, labels and language tags are checked, and nothing may follow the term.
-/
namespace SparqlConformance

open Text

namespace Written

/-- The character written with exactly these hexadecimal digits. -/
def escaped? (digits : List Char) : Option Char :=
  (foldDigits 16 hexDigit? 0 digits).bind scalar?

/-- The lexical form up to the closing quote, and what follows the quote. -/
def lexical : List Char → Option (List Char × List Char)
  | [] => none
  | '"' :: r => some ([], r)
  | '\\' :: 'u' :: a :: b :: c :: d :: r =>
    match escaped? [a, b, c, d] with
    | some x => (lexical r).map fun (s, rest) => (x :: s, rest)
    | none => none
  | '\\' :: 'U' :: a :: b :: c :: d :: e :: f :: g :: h :: r =>
    match escaped? [a, b, c, d, e, f, g, h] with
    | some x => (lexical r).map fun (s, rest) => (x :: s, rest)
    | none => none
  | '\\' :: c :: r =>
    match NTriples.shortEscape? c with
    | some x => (lexical r).map fun (s, rest) => (x :: s, rest)
    | none => none
  | c :: r => if c = '\\' then none else (lexical r).map fun (s, rest) => (c :: s, rest)

/-- Resolves the escapes of code points in an IRI; other backslashes stay. -/
def iriText : List Char → Option (List Char)
  | [] => some []
  | '\\' :: 'u' :: a :: b :: c :: d :: r =>
    match escaped? [a, b, c, d] with
    | some x => (iriText r).map (x :: ·)
    | none => none
  | '\\' :: 'U' :: a :: b :: c :: d :: e :: f :: g :: h :: r =>
    match escaped? [a, b, c, d, e, f, g, h] with
    | some x => (iriText r).map (x :: ·)
    | none => none
  | '\\' :: c :: r => if c = 'u' ∨ c = 'U' then none else (iriText r).map fun s => '\\' :: c :: s
  | c :: r => (iriText r).map (c :: ·)

/-- An IRI in angle brackets, and what follows it. -/
def iri? (s : List Char) : Option (String × List Char) :=
  match trim s with
  | '<' :: r =>
    match cutFirst '>' r with
    | some (text, rest) =>
      match iriText text with
      | some iri => if Iri.isAbsolute iri then some (String.ofList iri, rest) else none
      | none => none
    | none => none
  | _ => none

def endsLabel (c : Char) : Bool := isSpace c || "<_?$\"'>@^".toList.contains c

def blank? (s : List Char) : Option (String × List Char) :=
  match s with
  | '_' :: ':' :: r =>
    let (label, rest) := r.span fun c => !endsLabel c
    if isBlankLabel label then some (String.ofList label, rest) else none
  | _ => none

def isTagChar (c : Char) : Bool := c.isAlpha || c == '-'

/-- A literal in quotes, and what follows it. -/
def quoted? (s : List Char) : Option (Literal × List Char) :=
  match s with
  | '"' :: r =>
    match lexical r with
    | none => none
    | some (value, '@' :: rest) =>
      let (tag, rest) := rest.span isTagChar
      let tag := tag.map Char.toLower
      if LanguageTag.isWellFormed tag then
        some (.tagged (String.ofList value) (String.ofList tag), rest)
      else none
    | some (value, '^' :: '^' :: rest) =>
      (iri? rest).map fun (datatype, rest) => (.ofDatatype (String.ofList value) datatype, rest)
    | some (value, rest) => some (.plain (String.ofList value), rest)
  | _ => none

/-- The datatype of a number written without quotes. -/
def numberType? (s : List Char) : Option String :=
  let unsigned := match s with
    | '+' :: r | '-' :: r => r
    | _ => s
  let (whole, rest) := unsigned.span Char.isDigit
  let (point, fraction, rest) := match rest with
    | '.' :: r => (true, r.span Char.isDigit)
    | _ => (false, [], rest)
  match rest with
  | [] =>
    if point then if fraction.isEmpty then none else some "decimal"
    else if whole.isEmpty then none else some "integer"
  | e :: r =>
    if e = 'e' ∨ e = 'E' then
      let digits := match r with
        | '+' :: r | '-' :: r => r
        | _ => r
      if (whole.isEmpty && fraction.isEmpty) || digits.isEmpty || !digits.all Char.isDigit then none
      else some "double"
    else none

def shorthand? (s : List Char) : Option Literal :=
  let value := String.ofList s
  let typed (name : String) := Literal.typed value ("http://www.w3.org/2001/XMLSchema#" ++ name)
  if value = "true" ∨ value = "false" then some (typed "boolean")
  else (numberType? s).map typed

def whole? {α : Type} : Option (α × List Char) → Option α
  | some (a, []) => some a
  | _ => none

end Written

/-- Reads a literal in quotes. -/
def Literal.ofQuoted? (s : List Char) : Option Literal := Written.whole? (Written.quoted? (trim s))

/-- Reads a term in its written form. -/
def Term.ofWritten? (s : List Char) : Option Term :=
  let s := trim s
  match s with
  | '<' :: '<' :: _ => none
  | '<' :: _ => (Written.whole? (Written.iri? s)).map Term.iri
  | '_' :: _ => (Written.whole? (Written.blank? s)).map Term.blank
  | '"' :: _ => (Written.whole? (Written.quoted? s)).map Term.literal
  | _ => (Written.shorthand? s).map Term.literal

end SparqlConformance
