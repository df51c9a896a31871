import SparqlConformance.Text.CharClass
import SparqlConformance.Text.Lines
/-!
# Absolute IRIs

Which texts are IRIs with a scheme, by the grammar of RFC 3987. The address of an IP literal is checked
down to its groups, and a per cent sign has to start an escape everywhere.
-/
namespace SparqlConformance.Iri

open Text

/-- Unreserved characters of IRIs and the sub-delimiters. -/
def isPlain (c : Char) : Bool :=
  c.isAlphanum || "!$&'()*+,-.;=_~".toList.contains c || inRanges
    [(0xA0, 0xD7FF), (0xF900, 0xFDCF), (0xFDF0, 0xFFEF), (0x10000, 0x1FFFD), (0x20000, 0x2FFFD),
     (0x30000, 0x3FFFD), (0x40000, 0x4FFFD), (0x50000, 0x5FFFD), (0x60000, 0x6FFFD),
     (0x70000, 0x7FFFD), (0x80000, 0x8FFFD), (0x90000, 0x9FFFD), (0xA0000, 0xAFFFD),
     (0xB0000, 0xBFFFD), (0xC0000, 0xCFFFD), (0xD0000, 0xDFFFD), (0xE1000, 0xEFFFD)] c

def isPathChar (c : Char) : Bool := isPlain c || c == ':' || c == '@' || c == '/'

def isQueryChar (c : Char) : Bool :=
  isPathChar c || c == '?' || inRanges [(0xE000, 0xF8FF), (0xF0000, 0xFFFFD), (0x100000, 0x10FFFD)] c

def isFragmentChar (c : Char) : Bool := isPathChar c || c == '?'

/-- Every character is in the class or belongs to an escape of two hexadecimal digits. -/
def escapedAll (ok : Char → Bool) : List Char → Bool
  | [] => true
  | '%' :: a :: b :: r => isHexDigit a && isHexDigit b && escapedAll ok r
  | c :: r => ok c && escapedAll ok r

def isByteText (s : List Char) : Bool :=
  match decimalBelow? 256 s with
  | some _ => s.all Char.isDigit && (s == ['0'] || s.head? != some '0')
  | none => false

def isIpv4 (s : List Char) : Bool :=
  let parts := splitAt '.' s
  parts.length == 4 && parts.all isByteText

def isGroup (s : List Char) : Bool := !s.isEmpty && s.length ≤ 4 && s.all isHexDigit

/-- The number of 16 bit groups of colon-separated pieces; the last one may be an IPv4 address when
`mixed` is set, and counts twice. -/
def groupCount (mixed : Bool) : List (List Char) → Option Nat
  | [] => some 0
  | [p] => if isGroup p then some 1 else if mixed && isIpv4 p then some 2 else none
  | p :: ps => if isGroup p then (groupCount mixed ps).map (· + 1) else none

def groups (mixed : Bool) (s : List Char) : Option Nat :=
  if s.isEmpty then some 0 else groupCount mixed (splitAt ':' s)

/-- IPv6 addresses: eight groups, or at most seven around one `::`. -/
def isIpv6 (s : List Char) : Bool :=
  match cutAt [':', ':'] s with
  | none => groups true s == some 8
  | some (l, r) =>
    match groups false l, groups true r with
    | some a, some b => a + b ≤ 7
    | _, _ => false

/-- Addresses of future versions: `v`, a hexadecimal version, a dot and at least one character. -/
def isIpFuture (s : List Char) : Bool :=
  match cutFirst '.' s with
  | some (v :: version, address) =>
    (v == 'v' || v == 'V') && !version.isEmpty && version.all isHexDigit
      && !address.isEmpty && address.all fun c => isPlain c || c == ':'
  | _ => false

def isIpLiteral (s : List Char) : Bool := isIpv6 s || isIpFuture s

def isPort (s : List Char) : Bool := s.all Char.isDigit

def isHostPort (s : List Char) : Bool :=
  match s with
  | '[' :: r =>
    match cutFirst ']' r with
    | none => false
    | some (ip, rest) =>
      isIpLiteral ip && match rest with
        | [] => true
        | ':' :: number => isPort number
        | _ => false
  | _ =>
    match cutFirst ':' s with
    | none => escapedAll isPlain s
    | some (host, number) => escapedAll isPlain host && isPort number

/-- An authority; an at sign before any bracket ends the user information. -/
def isAuthority (s : List Char) : Bool :=
  match cutFirst '@' s with
  | some (user, rest) =>
    if user.contains '[' then isHostPort s
    else escapedAll (fun c => isPlain c || c == ':') user && isHostPort rest
  | none => isHostPort s

/-- The path of an IRI and the query and fragment that may follow it. -/
def isTail (s : List Char) : Bool :=
  let (front, fragment) := (cutFirst '#' s).getD (s, [])
  let (path, query) := (cutFirst '?' front).getD (front, [])
  escapedAll isPathChar path && escapedAll isQueryChar query && escapedAll isFragmentChar fragment

def isHierarchy (s : List Char) : Bool :=
  match s with
  | '/' :: '/' :: r =>
    let (authority, tail) := r.span fun c => c != '/' && c != '?' && c != '#'
    isAuthority authority && isTail tail
  | _ => isTail s

def isSchemeChar (c : Char) : Bool := c.isAlphanum || c == '+' || c == '-' || c == '.'

/-- The part of a text after its scheme and the colon. -/
def afterScheme? (s : List Char) : Option (List Char × List Char) :=
  match s with
  | c :: _ =>
    if c.isAlpha then
      match s.span isSchemeChar with
      | (scheme, ':' :: rest) => some (scheme, rest)
      | _ => none
    else none
  | [] => none

/-- Recognises absolute IRIs. -/
def isAbsolute (s : List Char) : Bool :=
  match afterScheme? s with
  | some (_, rest) => isHierarchy rest
  | none => false

end SparqlConformance.Iri

namespace SparqlConformance

def isIri (s : String) : Bool := Iri.isAbsolute s.toList

end SparqlConformance
