import SparqlConformance.Rdf.Iri
import SparqlConformance.Rdf.Names
import SparqlConformance.Rdf.Term
import SparqlConformance.Text.Space
/-!
# N-Triples

Reads the triple that a line starts with. Strict reading checks IRIs and language tags, lenient reading
takes them as written and also accepts escaped surrogate pairs. What follows the dot is not looked at.
-/
namespace SparqlConformance.NTriples

open Text

/-- How much a reader checks. -/
inductive Mode
  | strict
  | lenient
  deriving DecidableEq, Repr

def isBlankSpace (c : Char) : Bool := c == ' ' || c == '\t'

def skipSpace (s : List Char) : List Char := s.dropWhile isBlankSpace

/-- The character named by hexadecimal digits. -/
def codePoint? (digits : List Char) : Option Char :=
  (unsigned? 16 hexDigit? digits).bind scalar?

/-- The character encoded by two escaped surrogates. -/
def surrogatePair? (high low : List Char) : Option Char := do
  let h ← unsigned? 16 hexDigit? high
  let l ← unsigned? 16 hexDigit? low
  if 0xD800 ≤ h ∧ h < 0xDC00 ∧ 0xDC00 ≤ l ∧ l < 0xE000 then
    scalar? (0x10000 + (h - 0xD800) * 0x400 + (l - 0xDC00))
  else none

/-- The character after a backslash in a string. -/
def shortEscape? (c : Char) : Option Char :=
  match c with
  | 't' => some '\t'
  | 'b' => some '\x08'
  | 'n' => some '\n'
  | 'r' => some '\r'
  | 'f' => some '\x0c'
  | '"' => some '"'
  | '\'' => some '\''
  | '\\' => some '\\'
  | _ => none

/-- Reads up to the closing character, resolving escapes; gives the text and what follows. -/
def readUntil (mode : Mode) (close : Char) (short : Bool) :
    List Char → Option (List Char × List Char)
  | [] => none
  | '\\' :: 'u' :: a :: b :: c :: d :: r =>
    match codePoint? [a, b, c, d] with
    | some x => (readUntil mode close short r).map fun (s, rest) => (x :: s, rest)
    | none =>
      match mode, r with
      | .lenient, '\\' :: 'u' :: e :: f :: g :: h :: r' =>
        match surrogatePair? [a, b, c, d] [e, f, g, h] with
        | some x => (readUntil mode close short r').map fun (s, rest) => (x :: s, rest)
        | none => none
      | _, _ => none
  | '\\' :: 'U' :: a :: b :: c :: d :: e :: f :: g :: h :: r =>
    match codePoint? [a, b, c, d, e, f, g, h] with
    | some x => (readUntil mode close short r).map fun (s, rest) => (x :: s, rest)
    | none => none
  | '\\' :: c :: r =>
    match short, shortEscape? c with
    | true, some x => (readUntil mode close short r).map fun (s, rest) => (x :: s, rest)
    | _, _ => none
  | c :: r =>
    if c = close then some ([], r)
    else if c = '\\' then none
    else (readUntil mode close short r).map fun (s, rest) => (c :: s, rest)

def readIri (mode : Mode) (s : List Char) : Option (String × List Char) :=
  match s with
  | '<' :: r =>
    if r.head? = some '<' then none
    else match readUntil mode '>' false r with
      | some (iri, rest) =>
        if mode = .lenient ∨ Iri.isAbsolute iri then some (String.ofList iri, rest) else none
      | none => none
  | _ => none

/-- The characters of a label; a dot belongs to it only when a label character follows. -/
def labelRun : List Char → Option (List Char × List Char)
  | [] => none
  | '.' :: d :: r =>
    if isNameChar d then
      (labelRun (d :: r)).map fun (s, rest) => ('.' :: s, rest)
    else some ([], '.' :: d :: r)
  | c :: r =>
    if isNameChar c then (labelRun r).map fun (s, rest) => (c :: s, rest)
    else if c = '.' then none
    else some ([], c :: r)

/-- Reads a blank node; a label at the very end of the text is unfinished. -/
def readBlank (s : List Char) : Option (String × List Char) :=
  match s with
  | '_' :: ':' :: c :: r =>
    if isNameBase c || c == '_' || c.isDigit then
      (labelRun r).map fun (l, rest) => (String.ofList (c :: l), rest)
    else none
  | _ => none

/-- A language tag: runs of letters with single dashes between them. -/
def tagRun (afterDash : Bool) : List Char → Option (List Char × List Char)
  | [] => none
  | c :: r =>
    if c.isAlpha then (tagRun false r).map fun (s, rest) => (c :: s, rest)
    else if afterDash then none
    else if c = '-' then (tagRun true r).map fun (s, rest) => ('-' :: s, rest)
    else some ([], c :: r)

def readTag (mode : Mode) (s : List Char) : Option (String × List Char) :=
  match tagRun true s with
  | some (tag, rest) =>
    if mode = .lenient ∨ LanguageTag.isWellFormed tag then
      some (String.ofList (tag.map Char.toLower), rest)
    else none
  | none => none

/-- What may follow the closing quote of a literal. -/
def readAnnotation (mode : Mode) (value : String) (s : List Char) : Option (Literal × List Char) :=
  match skipSpace s with
  | '@' :: r => (readTag mode r).map fun (tag, rest) => (.tagged value tag, rest)
  | '^' :: '^' :: r =>
    (readIri mode (skipSpace r)).map fun (iri, rest) => (.ofDatatype value iri, rest)
  | _ => some (.plain value, s)

def readLiteral (mode : Mode) (s : List Char) : Option (Literal × List Char) :=
  match s with
  | '"' :: r =>
    match readUntil mode '"' true r with
    | some (value, rest) => readAnnotation mode (String.ofList value) rest
    | none => none
  | _ => none

def readSubject (mode : Mode) (s : List Char) : Option (Term × List Char) :=
  match readIri mode s with
  | some (iri, rest) => some (.iri iri, rest)
  | none => (readBlank s).map fun (label, rest) => (.blank label, rest)

def readObject (mode : Mode) (s : List Char) : Option (Term × List Char) :=
  match readSubject mode s with
  | some t => some t
  | none => (readLiteral mode s).map fun (l, rest) => (.literal l, rest)

/-- The dot that ends a triple; a digit after it would make it a number. -/
def endsTriple (s : List Char) : Bool :=
  match skipSpace s with
  | '.' :: c :: _ => !c.isDigit
  | ['.'] => true
  | _ => false

/-- The triple at the start of a line. -/
def readTriple (mode : Mode) (s : List Char) : Option Triple := do
  let (subject, s) ← readSubject mode (skipSpace s)
  let (predicate, s) ← readIri mode (skipSpace s)
  let (object, s) ← readObject mode (skipSpace s)
  if endsTriple s then some ⟨subject, predicate, object⟩ else none

/-- Lines that hold no statement. -/
def isSilent (line : List Char) : Bool := line.isEmpty || line.head? == some '#'

end SparqlConformance.NTriples
