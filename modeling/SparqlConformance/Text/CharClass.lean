/-!
# Character classes

Classes of characters given as ranges of code points, shared by the readers of terms, identifiers and
markup.
-/
namespace SparqlConformance.Text

def inRanges (ranges : List (Nat × Nat)) (c : Char) : Bool :=
  ranges.any fun (lo, hi) => lo ≤ c.toNat && c.toNat ≤ hi

def isHexDigit (c : Char) : Bool :=
  c.isDigit || ('a' ≤ c && c ≤ 'f') || ('A' ≤ c && c ≤ 'F')

/-- The value of a hexadecimal digit. -/
def hexDigit? (c : Char) : Option Nat :=
  if c.isDigit then some (c.toNat - 48)
  else if 'a' ≤ c && c ≤ 'f' then some (c.toNat - 87)
  else if 'A' ≤ c && c ≤ 'F' then some (c.toNat - 55)
  else none

/-- Digits read most significant first, added to a value already read. -/
def foldDigits (base : Nat) (digit : Char → Option Nat) (acc : Nat) : List Char → Option Nat
  | [] => some acc
  | c :: r => (digit c).bind fun d => foldDigits base digit (acc * base + d) r

/-- An unsigned number in a base; one plus sign may stand in front, and a digit has to follow. -/
def unsigned? (base : Nat) (digit : Char → Option Nat) (s : List Char) : Option Nat :=
  let digits := match s with
    | '+' :: r => r
    | _ => s
  if digits.isEmpty then none else foldDigits base digit 0 digits

def decimalDigit? (c : Char) : Option Nat := if c.isDigit then some (c.toNat - 48) else none

/-- An unsigned decimal number below a bound. -/
def decimalBelow? (bound : Nat) (s : List Char) : Option Nat :=
  (unsigned? 10 decimalDigit? s).bind fun n => if n < bound then some n else none

/-- The character with a code point, unless it is a surrogate or out of range. -/
def scalar? (n : Nat) : Option Char :=
  if n < 0xD800 ∨ (0xDFFF < n ∧ n < 0x110000) then some (Char.ofNat n) else none

/-- Letters that may start a name: the class `PN_CHARS_BASE` of the Turtle grammar. -/
def isNameBase : Char → Bool := inRanges
  [(0x41, 0x5A), (0x61, 0x7A), (0xC0, 0xD6), (0xD8, 0xF6), (0xF8, 0x2FF), (0x370, 0x37D),
   (0x37F, 0x1FFF), (0x200C, 0x200D), (0x2070, 0x218F), (0x2C00, 0x2FEF), (0x3001, 0xD7FF),
   (0xF900, 0xFDCF), (0xFDF0, 0xFFFD), (0x10000, 0xEFFFF)]

/-- The class `PN_CHARS` of the Turtle grammar. -/
def isNameChar (c : Char) : Bool :=
  isNameBase c || c == '_' || c == '-' || c.isDigit || c.toNat == 0xB7
    || inRanges [(0x300, 0x36F), (0x203F, 0x2040)] c

def upperHexDigit (n : Nat) : Char := if n < 10 then Char.ofNat (48 + n) else Char.ofNat (55 + n)

/-- The two hexadecimal digits of a byte, in upper case. -/
def hexByte (n : Nat) : List Char := [upperHexDigit (n / 16 % 16), upperHexDigit (n % 16)]

end SparqlConformance.Text
