import SparqlConformance.Data.Members
import SparqlConformance.Format.Json.Event
import SparqlConformance.Number.Shortest
/-!
# JSON values

Values, read from events and written as text. Members of objects are in the order of their names, and of
two members with one name the last one counts. Numbers are whole where they fit into 64 bits, and doubles
otherwise; a double is scaled from its first significant digits by a power of ten.
-/
namespace SparqlConformance

inductive JsonNumber
  | whole (value : Int)
  | real (negative : Bool) (size : Binary64)
  deriving DecidableEq, Repr, Inhabited

inductive Json
  | null
  | bool (value : Bool)
  | number (value : JsonNumber)
  | string (value : String)
  | array (items : List Json)
  | object (members : List (String × Json))
  deriving Repr, Inhabited

namespace JsonNumber

/-- The leading digits of a number below 2^64, how many of them there are, and whether all are. -/
def leading (acc : Nat) : List Char → Nat × List Char
  | [] => (acc, [])
  | c :: r =>
    let n := acc * 10 + (c.toNat - 48)
    if n < twoTo 64 then leading n r else (acc, c :: r)

/-- A number of up to 64 bits times a power of ten, rounded at each step; powers above 10^308 are taken
in parts. -/
def scale? (fuel : Nat) (size : Binary64) (exponent : Int) : Option Binary64 :=
  let power (k : Nat) : Binary64 := (Binary64.ofNat? (tenTo k)).getD .zero
  if 0 ≤ exponent then
    if exponent ≤ 308 then size.mul? (power exponent.toNat)
    else if size.isZero then some .zero else none
  else if -308 ≤ exponent then size.div? (power (-exponent).toNat)
  else match fuel with
    | 0 => some .zero
    | fuel + 1 =>
      if size.isZero then some .zero
      else (size.div? (power 308)).bind fun size => scale? fuel size (exponent + 308)

/-- Exponents are kept within 32 bits. -/
def exponentOf (text : List Char) : Int :=
  let size (digits : List Char) : Int := digits.foldl (fun n c => n * 10 + (c.toNat - 48 : Nat)) 0
  match text with
  | _ :: '-' :: digits => -size digits
  | _ :: '+' :: digits => size digits
  | _ :: digits => size digits
  | [] => 0

/-- Reads a number from its parts; none if it is too large. -/
def ofParts? (negative : Bool) (digits fraction exponent : List Char) : Option JsonNumber :=
  let (n, rest) := leading 0 digits
  if fraction.isEmpty && exponent.isEmpty && rest.isEmpty && (!negative || (0 < n && n ≤ twoTo 63)) then
    some (.whole (if negative then -n else n))
  else
    let (m, dropped) := leading n fraction
    let taken : Int := fraction.length - dropped.length
    let power := exponentOf exponent
    if twoTo 31 ≤ power ∧ m ≠ 0 then none
    else ((Binary64.ofNat? m).bind fun size => scale? 8 size (rest.length - taken + power)).map
      (.real negative)

/-- Reads a number as the grammar writes it. -/
def ofText? (text : List Char) : Option JsonNumber :=
  let (negative, s) := match text with
    | '-' :: r => (true, r)
    | _ => (false, text)
  let (digits, s) := s.span Char.isDigit
  let (fraction, s) := match s with
    | '.' :: r => r.span Char.isDigit
    | _ => ([], s)
  ofParts? negative digits fraction s

/-- The text of a double: positional from 10^-5 up to 10^16, with a point in it; otherwise the digits and
a power of ten with its sign. -/
def realText (size : Binary64) : List Char :=
  if size.isZero then ['0', '.', '0']
  else
    let d := size.shortest
    let zeros (n : Int) : List Char := List.replicate n.toNat '0'
    let count : Int := d.digits.length
    if 0 ≤ d.exponent ∧ d.exponent < 16 then
      let place := d.exponent + 1
      if count ≤ place then d.digits ++ zeros (place - count) ++ ['.', '0']
      else d.digits.take place.toNat ++ '.' :: d.digits.drop place.toNat
    else if -5 ≤ d.exponent ∧ d.exponent < 0 then '0' :: '.' :: zeros (-d.exponent - 1) ++ d.digits
    else
      let point := if d.digits.length ≤ 1 then d.digits else d.digits.take 1 ++ '.' :: d.digits.drop 1
      let sign := if d.exponent < 0 then '-' else '+'
      point ++ 'e' :: sign :: Nat.toDigits 10 d.exponent.natAbs

def text : JsonNumber → List Char
  | whole n => (toString n).toList
  | real negative size => if negative then '-' :: realText size else realText size

end JsonNumber

namespace Json

/-- Arrays and objects inside of one another, at most. -/
def depthLimit : Nat := 127

mutual

/-- Reads a value from the start of a sequence of events. -/
def readValue (fuel depth : Nat) (events : List Event) : Option (Json × List Event) :=
  match fuel, events with
  | 0, _ | _, [] => none
  | fuel + 1, e :: rest =>
    match e with
    | .null => some (.null, rest)
    | .bool b => some (.bool b, rest)
    | .string s => some (.string s, rest)
    | .number text => (JsonNumber.ofText? text).map fun n => (.number n, rest)
    | .beginArray =>
      match depth with
      | 0 => none
      | depth + 1 => (readItems fuel depth rest).map fun (items, rest) => (.array items, rest)
    | .beginObject =>
      match depth with
      | 0 => none
      | depth + 1 => (readMembers fuel depth rest).map fun (pairs, rest) =>
          (.object (Members.ofPairs pairs), rest)
    | _ => none

def readItems (fuel depth : Nat) (events : List Event) : Option (List Json × List Event) :=
  match fuel, events with
  | 0, _ | _, [] => none
  | _, .endArray :: rest => some ([], rest)
  | fuel + 1, events =>
    match readValue fuel depth events with
    | some (item, rest) => (readItems fuel depth rest).map fun (items, rest) => (item :: items, rest)
    | none => none

def readMembers (fuel depth : Nat) (events : List Event) :
    Option (List (String × Json) × List Event) :=
  match fuel, events with
  | 0, _ | _, [] => none
  | _, .endObject :: rest => some ([], rest)
  | fuel + 1, .key name :: rest =>
    match readValue fuel depth rest with
    | some (value, rest) =>
      (readMembers fuel depth rest).map fun (pairs, rest) => ((name, value) :: pairs, rest)
    | none => none
  | _, _ => none

end

/-- The value of a sequence of events. -/
def ofEvents? (events : List Event) : Option Json :=
  match readValue (2 * events.length + 1) depthLimit events with
  | some (value, []) => some value
  | _ => none

/-- Reads a value from undecoded text. -/
def ofText? (s : List Char) : Option Json := ofEvents? (events s)

/-! ## Writing -/

def lowerHexDigit (n : Nat) : Char := if n < 10 then Char.ofNat (48 + n) else Char.ofNat (87 + n)

def escapeChar (c : Char) : List Char :=
  if c = '"' then ['\\', '"']
  else if c = '\\' then ['\\', '\\']
  else if c = '\x08' then ['\\', 'b']
  else if c = '\t' then ['\\', 't']
  else if c = '\n' then ['\\', 'n']
  else if c = '\x0c' then ['\\', 'f']
  else if c = '\r' then ['\\', 'r']
  else if c.toNat < 0x20 then
    ['\\', 'u', '0', '0', lowerHexDigit (c.toNat / 16), lowerHexDigit (c.toNat % 16)]
  else [c]

def quoted (s : String) : List Char := '"' :: (s.toList.flatMap escapeChar ++ ['"'])

def scalarText : Json → List Char
  | bool b => (if b then "true" else "false").toList
  | number n => n.text
  | string s => quoted s
  | _ => "null".toList

mutual

/-- The text without any space. -/
def compact : Json → List Char
  | array items => '[' :: compactItems items
  | object members => '{' :: compactMembers members
  | v => scalarText v

def compactItems : List Json → List Char
  | [] => [']']
  | [v] => compact v ++ [']']
  | v :: w :: rest => compact v ++ ',' :: compactItems (w :: rest)

def compactMembers : List (String × Json) → List Char
  | [] => ['}']
  | [(n, v)] => quoted n ++ ':' :: compact v ++ ['}']
  | (n, v) :: w :: rest => quoted n ++ ':' :: compact v ++ ',' :: compactMembers (w :: rest)

end

def indent (depth : Nat) : List Char := '\n' :: List.replicate (2 * depth) ' '

mutual

/-- The text with each item and member on a line of its own, two spaces further in. -/
def pretty (depth : Nat) : Json → List Char
  | array [] => ['[', ']']
  | array (v :: items) => '[' :: indent (depth + 1) ++ pretty (depth + 1) v ++ prettyItems depth items
  | object [] => ['{', '}']
  | object ((n, v) :: members) =>
    '{' :: indent (depth + 1) ++ quoted n ++ ':' :: ' ' :: pretty (depth + 1) v
      ++ prettyMembers depth members
  | v => scalarText v

def prettyItems (depth : Nat) : List Json → List Char
  | [] => indent depth ++ [']']
  | v :: items => ',' :: indent (depth + 1) ++ pretty (depth + 1) v ++ prettyItems depth items

def prettyMembers (depth : Nat) : List (String × Json) → List Char
  | [] => indent depth ++ ['}']
  | (n, v) :: members =>
    ',' :: indent (depth + 1) ++ quoted n ++ ':' :: ' ' :: pretty (depth + 1) v
      ++ prettyMembers depth members

end

end Json

end SparqlConformance
