import SparqlConformance.Files.Path
import SparqlConformance.Number.Power
import SparqlConformance.Rdf.Iri
import SparqlConformance.Text.CharClass
import SparqlConformance.Text.Lines
import SparqlConformance.Text.Utf8
/-!
# URLs

Reads URLs as far as a scheme, a host and a normalised path, by the WHATWG algorithm, and turns paths
of files into `file:` URLs and back. Queries and fragments are not kept. Dot segments are resolved
while the path is read, escaped dots included; backslashes separate segments in special schemes only.
-/
namespace SparqlConformance

/-- The kinds of schemes that the reading of a URL depends on. -/
inductive SchemeKind
  | file
  | special
  | other
  deriving DecidableEq, Repr

structure Url where
  scheme : List Char
  host : Option (List Char)
  path : List Char
  deriving DecidableEq, Repr

namespace Url

open Text

def schemeKind (scheme : List Char) : SchemeKind :=
  if scheme == "file".toList then .file
  else if ["http", "https", "ws", "wss", "ftp"].any fun s => scheme == s.toList then .special
  else .other

/-! ## Percent encoding -/

def percentByte (b : UInt8) : List Char := '%' :: hexByte b.toNat

/-- Encodes the characters of a class, and all characters outside of ASCII, byte by byte. -/
def percentEncode (reserved : Char → Bool) (s : List Char) : List Char :=
  s.flatMap fun c =>
    if c.toNat < 0x80 && !reserved c then [c] else (String.utf8EncodeChar c).flatMap percentByte

def percentDecode : List Char → List UInt8
  | [] => []
  | '%' :: a :: b :: r =>
    match hexDigit? a, hexDigit? b with
    | some x, some y => UInt8.ofNat (16 * x + y) :: percentDecode r
    | _, _ => String.utf8EncodeChar '%' ++ percentDecode (a :: b :: r)
  | c :: r => String.utf8EncodeChar c ++ percentDecode r

def isControl (c : Char) : Bool := c.toNat < 0x20 || c.toNat == 0x7F

def inFragmentSet (c : Char) : Bool := isControl c || " \"<>`".toList.contains c

def inPathSet (c : Char) : Bool := inFragmentSet c || "#?{}".toList.contains c

/-- Characters that can not stand in a segment made from a file name. -/
def inSegmentSet (c : Char) : Bool := inPathSet c || "/%\\".toList.contains c

/-! ## Hosts -/

def isOctal (c : Char) : Bool := '0' ≤ c && c ≤ '7'

/-- A number of an IPv4 address in base 8, 10 or 16; `none` inside for one that is out of range. -/
def ipNumber? (s : List Char) : Option (Option Nat) :=
  let read (base : Nat) (ok : Char → Bool) (s : List Char) : Option (Option Nat) :=
    if s.isEmpty then some (some 0)
    else if s.all ok then
      some ((foldDigits base hexDigit? 0 s).bind fun n => if n < twoTo 32 then some n else none)
    else none
  match s with
  | [] => none
  | '0' :: 'x' :: r | '0' :: 'X' :: r => read 16 isHexDigit r
  | '0' :: c :: r => read 8 isOctal (c :: r)
  | _ => read 10 Char.isDigit s

def endsInNumber (s : List Char) : Bool :=
  let last := match (splitAt '.' s).reverse with
    | [] :: p :: _ => p
    | [[]] => []
    | p :: _ => p
    | [] => []
  (!last.isEmpty && last.all Char.isDigit) || (ipNumber? last).isSome

def isIpv4Host (s : List Char) : Bool :=
  let parts := splitAt '.' s
  let parts := if parts.getLast? == some [] then parts.dropLast else parts
  if 4 < parts.length then false
  else match parts.mapM fun p => (ipNumber? p).join with
  | none => false
  | some numbers =>
    match numbers.getLast? with
    | none => false
    | some last => last < twoTo (8 * (5 - numbers.length)) && numbers.dropLast.all fun n => n ≤ 255

/-- Characters that no domain may hold. -/
def isForbiddenInDomain (c : Char) : Bool := isControl c || " #/:<>?@[\\]^|%".toList.contains c

def isForbiddenInHost (c : Char) : Bool :=
  "\x00\t\n\r #/:<>?@[\\]^|".toList.contains c

/-- The form of a character that domains are compared in; full width forms become ASCII. -/
def foldDomainChar (c : Char) : Option Char :=
  if c.toNat = 0xAD ∨ c.toNat = 0x200B ∨ c.toNat = 0x2060 ∨ c.toNat = 0xFEFF then none
  else if c.toNat = 0x3002 ∨ c.toNat = 0xFF61 then some '.'
  else if 0xFF01 ≤ c.toNat ∧ c.toNat ≤ 0xFF5E then some (Char.ofNat (c.toNat - 0xFEE0)).toLower
  else some c.toLower

def punycodeDigit? (c : Char) : Option Nat :=
  if c.isDigit then some (c.toNat - 22) else if c.isLower then some (c.toNat - 97) else none

/-- How far the threshold of a digit moves after a delta has been read. -/
def punycodeBias (fuel k delta : Nat) : Nat :=
  match fuel with
  | 0 => k
  | fuel + 1 =>
    if 455 < delta then punycodeBias fuel (k + 36) (delta / 35) else k + 36 * delta / (delta + 38)

/-- Reads the deltas of an encoded label; `i` is the insertion state and `n` the code point. -/
def punycodeDeltas (i n w k bias count : Nat) (old : Nat) (fresh : Bool) :
    List Char → Option Nat
  | [] => if fresh then some count else none
  | c :: r =>
    match punycodeDigit? c with
    | none => none
    | some d =>
      let i := i + d * w
      let t := if k ≤ bias then 1 else if bias + 26 ≤ k then 26 else k - bias
      if d < t then
        let delta := if old = 0 then i / 700 else (i - old) / 2
        let bias := punycodeBias 10 0 (delta + delta / (count + 1))
        let n := n + i / (count + 1)
        let i := i % (count + 1)
        if 0x10FFFF < n || (0xD800 ≤ n && n ≤ 0xDFFF) then none
        else punycodeDeltas (i + 1) n 1 36 bias (count + 1) (i + 1) true r
      else punycodeDeltas i n (w * (36 - t)) (k + 36) bias count old false r

/-- Labels that start with `xn--` have to encode at least one character. -/
def isLabel (s : List Char) : Bool :=
  match stripStart "xn--".toList s with
  | none => true
  | some r =>
    let (basic, encoded) := match cutFirst '-' r.reverse with
      | some (e, b) => (b.reverse, e.reverse)
      | none => ([], r)
    !encoded.isEmpty
      && (punycodeDeltas 0 128 1 36 72 basic.length 0 true encoded).isSome

/-- The host of a special URL in lower case, if it is one. -/
def domain? (s : List Char) : Option (List Char) :=
  match s with
  | '[' :: r =>
    match stripEnd [']'] r with
    | some ip => if Iri.isIpv6 ip then some s else none
    | none => none
  | _ =>
    match Utf8.decode? (percentDecode s) with
    | none => none
    | some s =>
      let s := s.filterMap foldDomainChar
      if s.isEmpty || s.any isForbiddenInDomain || !(splitAt '.' s).all isLabel then none
      else if endsInNumber s && !isIpv4Host s then none
      else some s

/-- The host of a URL of any other scheme; it may be empty. -/
def opaqueHost? (s : List Char) : Option (List Char) :=
  match s with
  | '[' :: r =>
    match stripEnd [']'] r with
    | some ip => if Iri.isIpv6 ip then some s else none
    | none => none
  | _ => if s.any isForbiddenInHost then none else some s

def isPort (s : List Char) : Bool :=
  s.all Char.isDigit && ((foldDigits 10 decimalDigit? 0 s).any fun n => n < 65536)

/-- The host of an authority and the number after its colon, which stands outside of brackets. -/
def cutPort (inside : Bool) : List Char → List Char × Option (List Char)
  | [] => ([], none)
  | c :: r =>
    if c = ':' && !inside then ([], some r)
    else
      let inside := if c = '[' then true else if c = ']' then false else inside
      let (host, number) := cutPort inside r
      (c :: host, number)

def authorityHost? (kind : SchemeKind) (s : List Char) : Option (List Char) :=
  let user := (cutFirst '@' s.reverse).map fun (after, before) => (before.reverse, after.reverse)
  let rest := match user with
    | some (_, r) => r
    | none => s
  let (host, number) := cutPort false rest
  let host? := if kind = .other then opaqueHost? host else domain? host
  match host? with
  | none => none
  | some h =>
    if h.isEmpty && (number.isSome || user.any fun (u, _) => u != [':']) then none
    else if !(number.all isPort) then none
    else some h

/-! ## Paths -/

def isDriveLetter (s : List Char) : Bool :=
  match s with
  | [c, d] => c.isAlpha && (d == ':' || d == '|')
  | _ => false

/-- Whether a path starts with a drive letter as its first segment. -/
def startsWithDrive (s : List Char) : Bool :=
  match s with
  | '/' :: c :: d :: r =>
    c.isAlpha && (d == ':' || d == '|') && (r.isEmpty || "/\\?#".toList.contains (r.headD 'a'))
  | _ => false

def foldDots (s : List Char) : List Char :=
  match s with
  | '%' :: '2' :: 'e' :: r | '%' :: '2' :: 'E' :: r => '.' :: foldDots r
  | c :: r => c :: foldDots r
  | [] => []

def isSingleDot (s : List Char) : Bool := foldDots s == ['.']

def isDoubleDot (s : List Char) : Bool := foldDots s == ['.', '.']

/-- What precedes the last slash and that slash. -/
def upToSlash (s : List Char) : List Char := (s.reverse.dropWhile (· != '/')).reverse

def withSlash (s : List Char) : List Char := if s.getLast? == some '/' then s else s ++ ['/']

/-- The path after its last segment is taken away; the slash of the root stays. -/
def shorten (kind : SchemeKind) (path : List Char) : List Char :=
  let path :=
    if path.getLast? == some '/' then
      let front := path.dropLast
      let segment := front.reverse.takeWhile (· != '/')
      if front.contains '/' && !startsWithDrive ('/' :: (segment.reverse ++ ['/'])) then front else path
    else path
  let last := (path.reverse.takeWhile (· != '/')).reverse
  if kind = .file ∧ isDriveLetter last ∧ last.getLast? = some ':' then path else upToSlash path

/-- The path after one more segment. -/
def addSegment (kind : SchemeKind) (path segment : List Char) (more : Bool) : List Char :=
  if isDoubleDot segment then
    let path := shorten kind path
    if more then withSlash path else path
  else if isSingleDot segment then withSlash path
  else
    let segment :=
      if kind = .file ∧ path = ['/'] ∧ isDriveLetter segment then segment.take 1 ++ [':'] else segment
    path ++ segment ++ (if more then ['/'] else [])

def isSeparator (kind : SchemeKind) (c : Char) : Bool := c == '/' || (kind != .other && c == '\\')

/-- Reads segments; the current one is kept last character first. -/
def readSegments (kind : SchemeKind) (path segment : List Char) : List Char → List Char
  | [] => addSegment kind path (percentEncode inPathSet segment.reverse) false
  | c :: r =>
    if isSeparator kind c then
      readSegments kind (addSegment kind path (percentEncode inPathSet segment.reverse) true) [] r
    else readSegments kind path (c :: segment) r

/-- The normalised path of a text that holds no query and no fragment. -/
def normalisePath (kind : SchemeKind) (start s : List Char) : List Char :=
  let path := readSegments kind start [] s
  if kind = .file then '/' :: path.dropWhile (· == '/') else path

def beforeQuery (s : List Char) : List Char := s.takeWhile fun c => c != '?' && c != '#'

/-! ## Reading -/

/-- A path after an authority. -/
def pathAfterHost (kind : SchemeKind) (s : List Char) : List Char :=
  let s := beforeQuery s
  match kind, s with
  | .other, [] => []
  | .other, _ => normalisePath kind [] s
  | _, [] => normalisePath kind ['/'] []
  | _, c :: r => normalisePath kind ['/'] (if isSeparator kind c then r else c :: r)

def endsAuthority (kind : SchemeKind) (c : Char) : Bool :=
  isSeparator kind c || c == '?' || c == '#'

def readAuthority (kind : SchemeKind) (scheme s : List Char) : Option Url :=
  let (authority, rest) := s.span fun c => !endsAuthority kind c
  (authorityHost? kind authority).map fun host => ⟨scheme, some host, pathAfterHost kind rest⟩

def readFile (scheme s : List Char) : Option Url :=
  match s with
  | a :: b :: r =>
    if isSeparator .file a && isSeparator .file b then
      let (host, rest) := r.span fun c => !endsAuthority .file c
      if isDriveLetter host then
        some ⟨scheme, none, normalisePath .file ['/'] (beforeQuery r)⟩
      else if host.isEmpty then
        some ⟨scheme, none, normalisePath .file [] (beforeQuery rest)⟩
      else match domain? host with
      | none => none
      | some h =>
        let path := normalisePath .file ['/'] ((beforeQuery rest).drop 1)
        let drop := h == "localhost".toList || startsWithDrive path
        some ⟨scheme, if drop then none else some h, path⟩
    else readLocal s
  | _ => readLocal s
where
  /-- A path with no authority in front. -/
  readLocal (s : List Char) : Option Url :=
    let s := beforeQuery s
    match s with
    | c :: r => some ⟨scheme, none, normalisePath .file ['/'] (if isSeparator .file c then r else c :: r)⟩
    | [] => some ⟨scheme, none, ['/']⟩

def readOther (scheme s : List Char) : Option Url :=
  match s with
  | '/' :: '/' :: r => readAuthority .other scheme r
  | '/' :: r => some ⟨scheme, none, normalisePath .other ['/'] (beforeQuery r)⟩
  | _ => some ⟨scheme, none, percentEncode isControl (beforeQuery s)⟩

def isIgnored (c : Char) : Bool := c == '\t' || c == '\n' || c == '\r'

/-- The text of a URL without the characters that are never part of it. -/
def cleaned (s : List Char) : List Char :=
  let s := s.dropWhile fun c => c.toNat ≤ 0x20
  ((s.reverse.dropWhile fun c => c.toNat ≤ 0x20).reverse).filter fun c => !isIgnored c

/-- Reads an absolute URL. -/
def read? (s : List Char) : Option Url :=
  match Iri.afterScheme? (cleaned s) with
  | none => none
  | some (scheme, rest) =>
    let scheme := scheme.map Char.toLower
    match schemeKind scheme with
    | .file => readFile scheme rest
    | .special => readAuthority .special scheme (rest.dropWhile fun c => c == '/' || c == '\\')
    | .other => readOther scheme rest

/-- The segments of a path that starts with a slash. -/
def segments? (u : Url) : Option (List (List Char)) :=
  match u.path with
  | '/' :: r => some (splitAt '/' r)
  | _ => none

/-! ## Files -/

/-- The path of a local file; bytes that are no text become U+FFFD. -/
def filePath? (u : Url) : Option Path :=
  match u.host, u.segments? with
  | none, some segments =>
    let bytes := segments.flatMap fun s => 0x2F :: percentDecode s
    let drive := match bytes.reverse with
      | d :: c :: _ :: _ =>
        (d == 0x3A || d == 0x7C) && (Char.ofNat c.toNat).isAlpha
      | _ => false
    some ⟨String.ofList (Utf8.decodeLossy (if drive then bytes ++ [0x2F] else bytes))⟩
  | _, _ => none

/-- The `file:` URL of an absolute path. -/
def ofFilePath? (p : Path) : Option String :=
  if p.isAbsolute then
    let text := p.names.flatMap fun s => '/' :: percentEncode inSegmentSet s
    some (String.ofList ("file://".toList ++ if text.isEmpty then ['/'] else text))
  else none

/-- The `file:` URL of an absolute directory, ended by a slash. -/
def ofDirectory? (p : Path) : Option String :=
  (ofFilePath? p).map fun s => String.ofList (withSlash s.toList)

/-- A fragment as it stands in a URL. -/
def fragmentText (s : List Char) : List Char :=
  percentEncode inFragmentSet (s.filter fun c => !isIgnored c)

end Url

end SparqlConformance
