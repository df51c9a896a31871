import SparqlConformance.Text.CharClass
import SparqlConformance.Text.Lines
import SparqlConformance.Text.Utf8
/-!
# XML events

An XML text as the sequence of its tags and pieces of text. The sequence goes on until the text ends or
the markup goes wrong; a fault is the last event. Comments, processing instructions and document types
leave no trace, white space around pieces of text is left out, and an empty element counts as a start
and an end. Elements may stay open at the end of the text. Texts are given undecoded.
-/
namespace SparqlConformance.Xml

open Text

inductive Event
  | start (name : List Char) (attributes : List Char)
  | finish (name : List Char)
  | text (piece : List Char)
  | cdata
  | fault
  deriving DecidableEq, Repr, Inhabited

def isBlank (c : Char) : Bool := c == ' ' || c == '\t' || c == '\n' || c == '\r'

def trimBlank (s : List Char) : List Char :=
  ((s.dropWhile isBlank).reverse.dropWhile isBlank).reverse

/-- The part of a name after its first colon. -/
def localName (name : List Char) : List Char :=
  match cutFirst ':' name with
  | some (_, rest) => rest
  | none => name

/-- A tag up to its closing bracket; brackets in quotes do not count. -/
def cutTag (quote : Option Char) : List Char → Option (List Char × List Char)
  | [] => none
  | c :: r =>
    match quote with
    | none =>
      if c = '>' then some ([], r)
      else
        let quote := if c = '"' ∨ c = '\'' then some c else none
        (cutTag quote r).map fun (tag, rest) => (c :: tag, rest)
    | some q =>
      (cutTag (if c = q then none else some q) r).map fun (tag, rest) => (c :: tag, rest)

/-- A document type, whose brackets are balanced, up to its closing bracket. -/
def cutDoctype (depth : Nat) : List Char → Option (List Char × List Char)
  | [] => none
  | c :: r =>
    if c = '>' ∧ depth = 0 then some ([], r)
    else
      let depth := if c = '<' then depth + 1 else if c = '>' then depth - 1 else depth
      (cutDoctype depth r).map fun (content, rest) => (c :: content, rest)

/-- Whether a document type, in any case, says more than that it is one. -/
def isDoctype (content : List Char) : Bool :=
  String.ofList ((content.take 7).map Char.toLower) == "doctype"
    && (content.drop 7).any fun c => !isBlank c

def startsProcessing (s : List Char) : Option (List Char) :=
  if s.head? = some '>' then none else (cutAt ['?', '>'] s).map Prod.snd

/-- Reads on from a place with some elements open; every step takes at least one character. -/
def scan (fuel : Nat) (opened : List (List Char)) (s : List Char) : List Event :=
  match fuel with
  | 0 => [.fault]
  | fuel + 1 =>
    match s.dropWhile isBlank with
    | [] => []
    | '<' :: '!' :: '-' :: '-' :: r =>
      match cutAt ['-', '-', '>'] r with
      | some (_, rest) => scan fuel opened rest
      | none => [.fault]
    | '<' :: '!' :: '[' :: r =>
      match stripStart "CDATA[".toList r, cutAt [']', ']', '>'] r with
      | some _, some (_, rest) => .cdata :: scan fuel opened rest
      | _, _ => [.fault]
    | '<' :: '!' :: r =>
      match cutDoctype 0 r with
      | some (content, rest) => if isDoctype content then scan fuel opened rest else [.fault]
      | none => [.fault]
    | '<' :: '?' :: r =>
      match startsProcessing r with
      | some rest => scan fuel opened rest
      | none => [.fault]
    | '<' :: '/' :: r =>
      match cutFirst '>' r, opened with
      | some (tag, rest), name :: opened =>
        if trimBlank tag = name && tag.head?.all (fun c => !isBlank c) then
          .finish name :: scan fuel opened rest
        else [.fault]
      | _, _ => [.fault]
    | '<' :: r =>
      match cutTag none r with
      | none => [.fault]
      | some (tag, rest) =>
        let isEmpty := tag.getLast? = some '/'
        let content := if isEmpty then tag.dropLast else tag
        let (name, attributes) := content.span fun c => !isBlank c
        if isEmpty then .start name attributes :: .finish name :: scan fuel opened rest
        else .start name attributes :: scan fuel (name :: opened) rest
    | s =>
      let (piece, rest) := s.span fun c => c != '<'
      .text (trimBlank piece) :: scan fuel opened rest

def withoutMark (s : List Char) : List Char :=
  (stripStart (Utf8.undecoded [0xEF, 0xBB, 0xBF]) s).getD s

/-- The events of a text. -/
def events (s : List Char) : List Event := scan (s.length + 1) [] (withoutMark s)

/-! ## Attributes -/

structure Attribute where
  name : List Char
  value : List Char
  deriving DecidableEq, Repr

/-- What follows the value at the start of a text. -/
def skipValue (s : List Char) : List Char :=
  match s.dropWhile isBlank with
  | [] => []
  | c :: r =>
    if c = '"' ∨ c = '\'' then (r.dropWhile (· != c)).drop 1 else r.dropWhile fun c => !isBlank c

/-- The attributes of a tag in their order, none for each one that is not well formed or repeats a
name. -/
def attributesFrom (fuel : Nat) (seen : List (List Char)) (s : List Char) : List (Option Attribute) :=
  match fuel, s.dropWhile isBlank with
  | 0, _ | _, [] => []
  | fuel + 1, c :: r =>
    let (more, rest) := r.span fun c => c != '=' && !isBlank c
    let name := c :: more
    match rest.dropWhile isBlank with
    | '=' :: r =>
      if name ∈ seen then none :: attributesFrom fuel seen (skipValue r)
      else match r.dropWhile isBlank with
        | [] => [none]
        | q :: v =>
          if q = '"' ∨ q = '\'' then
            match cutFirst q v with
            | some (value, rest) =>
              some ⟨name, value⟩ :: attributesFrom fuel (name :: seen) rest
            | none => [none]
          else none :: attributesFrom fuel (name :: seen) (skipValue (q :: v))
    | [] => [none]
    | rest => none :: attributesFrom fuel seen rest

def attributes (s : List Char) : List (Option Attribute) := attributesFrom s.length [] s

/-! ## Text -/

/-- The character of a numeric reference; a sign is not allowed. -/
def reference? (s : List Char) : Option Char :=
  let (base, digits) := match s with
    | 'x' :: r => (16, r)
    | _ => (10, s)
  let digit (c : Char) : Option Nat := if base = 16 then hexDigit? c else decimalDigit? c
  if digits.isEmpty then none
  else (foldDigits base digit 0 digits).bind fun n => if n = 0 then none else scalar? n

def entity? (name : List Char) : Option Char :=
  match name with
  | '#' :: r => reference? r
  | _ =>
    match String.ofList name with
    | "lt" => some '<'
    | "gt" => some '>'
    | "amp" => some '&'
    | "quot" => some '"'
    | "apos" => some '\''
    | _ => none

/-- Resolves the references in a text; `name` is the one being read, last character first. -/
def resolve (name : Option (List Char)) : List Char → Option (List Char)
  | [] => if name.isSome then none else some []
  | c :: r =>
    match name with
    | none => if c = '&' then resolve (some []) r else (resolve none r).map (c :: ·)
    | some n =>
      if c = ';' then
        match entity? n.reverse with
        | some x => (resolve none r).map (x :: ·)
        | none => none
      else if c = '&' then none
      else resolve (some (c :: n)) r

/-- The text of an undecoded piece. -/
def pieceText? (piece : List Char) : Option (List Char) :=
  (Utf8.decodePiece? piece).bind (resolve none)

end SparqlConformance.Xml
