import SparqlConformance.Text.CharClass
import SparqlConformance.Text.Utf8
/-!
# JSON events

A JSON text as the sequence of what starts, ends and stands in it. The sequence goes on until the text
ends or departs from the grammar; a departure is an event of its own and the last one. Texts are given
undecoded, and only strings are decoded.
-/
namespace SparqlConformance.Json

open Text

inductive Event
  | beginObject
  | endObject
  | beginArray
  | endArray
  | key (name : String)
  | string (value : String)
  | number (text : List Char)
  | bool (value : Bool)
  | null
  | fault
  deriving DecidableEq, Repr, Inhabited

def isBlank (c : Char) : Bool := c == ' ' || c == '\t' || c == '\n' || c == '\r'

/-- The character of an escape with one letter. -/
def shortEscape? (c : Char) : Option Char :=
  match c with
  | '"' => some '"'
  | '\\' => some '\\'
  | '/' => some '/'
  | 'b' => some '\x08'
  | 'f' => some '\x0c'
  | 'n' => some '\n'
  | 'r' => some '\r'
  | 't' => some '\t'
  | _ => none

/-- The code unit written with four hexadecimal digits. -/
def unit? (digits : List Char) : Option Nat := foldDigits 16 hexDigit? 0 digits

def pair? (high low : Nat) : Option Char :=
  if 0xDC00 ≤ low ∧ low ≤ 0xDFFF then scalar? (0x10000 + (high - 0xD800) * 0x400 + (low - 0xDC00))
  else none

def isHigh (unit : Nat) : Bool := 0xD800 ≤ unit && unit ≤ 0xDBFF

/-- The undecoded text of a string up to its closing quote, and what follows it. -/
def readString : List Char → Option (List Char × List Char)
  | [] => none
  | '"' :: r => some ([], r)
  | '\\' :: 'u' :: a :: b :: c :: d :: r =>
    match unit? [a, b, c, d] with
    | none => none
    | some high =>
      if isHigh high then
        match r with
        | '\\' :: 'u' :: e :: f :: g :: h :: r =>
          match (unit? [e, f, g, h]).bind (pair? high) with
          | some x => (readString r).map fun (s, rest) => (Utf8.undecoded (Utf8.encode [x]) ++ s, rest)
          | none => none
        | _ => none
      else match scalar? high with
        | some x => (readString r).map fun (s, rest) => (Utf8.undecoded (Utf8.encode [x]) ++ s, rest)
        | none => none
  | '\\' :: c :: r =>
    match shortEscape? c with
    | some x => (readString r).map fun (s, rest) => (x :: s, rest)
    | none => none
  | c :: r =>
    if c = '\\' ∨ c.toNat < 0x20 then none else (readString r).map fun (s, rest) => (c :: s, rest)

def string? (s : List Char) : Option (String × List Char) :=
  (readString s).bind fun (piece, rest) =>
    (Utf8.decodePiece? piece).map fun value => (String.ofList value, rest)

/-- One or more digits. -/
def digits? (s : List Char) : Option (List Char × List Char) :=
  let (digits, rest) := s.span Char.isDigit
  if digits.isEmpty then none else some (digits, rest)

/-- The digits of a whole number; a zero stands alone. -/
def whole? (s : List Char) : Option (List Char × List Char) :=
  match s with
  | '0' :: r => some (['0'], r)
  | _ => digits? s

def fraction? (s : List Char) : Option (List Char × List Char) :=
  match s with
  | '.' :: r => (digits? r).map fun (digits, rest) => ('.' :: digits, rest)
  | _ => some ([], s)

def exponent? (s : List Char) : Option (List Char × List Char) :=
  match s with
  | c :: r =>
    if c = 'e' ∨ c = 'E' then
      match r with
      | '+' :: r => (digits? r).map fun (digits, rest) => (c :: '+' :: digits, rest)
      | '-' :: r => (digits? r).map fun (digits, rest) => (c :: '-' :: digits, rest)
      | _ => (digits? r).map fun (digits, rest) => (c :: digits, rest)
    else some ([], s)
  | [] => some ([], [])

/-- The number at the start of a text, as it is written. -/
def number? (s : List Char) : Option (List Char × List Char) := do
  let (sign, s) := match s with
    | '-' :: r => (['-'], r)
    | _ => ([], s)
  let (whole, s) ← whole? s
  let (fraction, s) ← fraction? s
  let (exponent, s) ← exponent? s
  some (sign ++ whole ++ fraction ++ exponent, s)

/-- What may come next. -/
inductive Expected
  | value
  | itemOrEnd
  | keyOrEnd
  | key
  | colon
  | afterValue
  deriving DecidableEq, Repr

/-- What a value stands in. -/
inductive Container
  | array
  | object
  deriving DecidableEq, Repr

/-- The event of a value that is neither an array nor an object. -/
def scalarEvent? (s : List Char) : Option (Event × List Char) :=
  match s with
  | '"' :: r => (string? r).map fun (value, rest) => (.string value, rest)
  | 't' :: 'r' :: 'u' :: 'e' :: r => some (.bool true, r)
  | 'f' :: 'a' :: 'l' :: 's' :: 'e' :: r => some (.bool false, r)
  | 'n' :: 'u' :: 'l' :: 'l' :: r => some (.null, r)
  | _ => (number? s).map fun (text, rest) => (.number text, rest)

/-- Reads on from a place; every step but the last takes at least one character. -/
def scan (fuel : Nat) (expected : Expected) (inside : List Container) (s : List Char) : List Event :=
  match fuel with
  | 0 => [.fault]
  | fuel + 1 =>
    match expected, inside, s.dropWhile isBlank with
    | .afterValue, [], [] => []
    | .afterValue, .array :: inside, ']' :: r => .endArray :: scan fuel .afterValue inside r
    | .afterValue, .object :: inside, '}' :: r => .endObject :: scan fuel .afterValue inside r
    | .afterValue, .array :: inside, ',' :: r => scan fuel .value (.array :: inside) r
    | .afterValue, .object :: inside, ',' :: r => scan fuel .key (.object :: inside) r
    | .afterValue, _, _ => [.fault]
    | .itemOrEnd, .array :: inside, ']' :: r => .endArray :: scan fuel .afterValue inside r
    | .keyOrEnd, .object :: inside, '}' :: r => .endObject :: scan fuel .afterValue inside r
    | .keyOrEnd, inside, '"' :: r | .key, inside, '"' :: r =>
      match string? r with
      | some (name, rest) => .key name :: scan fuel .colon inside rest
      | none => [.fault]
    | .keyOrEnd, _, _ | .key, _, _ => [.fault]
    | .colon, inside, ':' :: r => scan fuel .value inside r
    | .colon, _, _ => [.fault]
    | _, inside, '[' :: r => .beginArray :: scan fuel .itemOrEnd (.array :: inside) r
    | _, inside, '{' :: r => .beginObject :: scan fuel .keyOrEnd (.object :: inside) r
    | _, inside, s =>
      match scalarEvent? s with
      | some (event, rest) => event :: scan fuel .afterValue inside rest
      | none => [.fault]

/-- The events of a text. -/
def events (s : List Char) : List Event := scan (s.length + 1) .value [] s

end SparqlConformance.Json
