/-!
# UTF-8

Bytes of texts and texts of bytes. The forgiving reader puts U+FFFD in the place of every maximal part
of an encoding that is cut short or goes wrong; the strict reader gives up there.
-/
namespace SparqlConformance.Utf8

/-- What the first byte of an encoded character says: how many bytes follow it, the bits it brings, and
between which bounds the second byte has to lie. -/
structure Lead where
  more : Nat
  bits : Nat
  low : Nat
  high : Nat
  deriving Repr

def lead? (b : UInt8) : Option Lead :=
  let n := b.toNat
  if n < 0x80 then some ⟨0, n, 0, 0⟩
  else if n < 0xC2 then none
  else if n < 0xE0 then some ⟨1, n - 0xC0, 0x80, 0xBF⟩
  else if n = 0xE0 then some ⟨2, 0, 0xA0, 0xBF⟩
  else if n = 0xED then some ⟨2, 13, 0x80, 0x9F⟩
  else if n < 0xF0 then some ⟨2, n - 0xE0, 0x80, 0xBF⟩
  else if n = 0xF0 then some ⟨3, 0, 0x90, 0xBF⟩
  else if n < 0xF4 then some ⟨3, n - 0xF0, 0x80, 0xBF⟩
  else if n = 0xF4 then some ⟨3, 4, 0x80, 0x8F⟩
  else none

def isWithin (b : UInt8) (low high : Nat) : Bool := low ≤ b.toNat && b.toNat ≤ high

def isMore (b : UInt8) : Bool := isWithin b 0x80 0xBF

def sixBits (b : UInt8) : Nat := b.toNat - 0x80

/-- The items of an encoded text: characters, and `none` for each part that is no character. -/
def items : List UInt8 → List (Option Char)
  | [] => []
  | a :: r =>
    match lead? a with
    | none => none :: items r
    | some l =>
      if l.more = 0 then some (Char.ofNat l.bits) :: items r
      else match r with
      | [] => [none]
      | b :: r =>
        if !isWithin b l.low l.high then none :: items (b :: r)
        else
          let two := l.bits * 64 + sixBits b
          if l.more = 1 then some (Char.ofNat two) :: items r
          else match r with
          | [] => [none]
          | c :: r =>
            if !isMore c then none :: items (c :: r)
            else
              let three := two * 64 + sixBits c
              if l.more = 2 then some (Char.ofNat three) :: items r
              else match r with
              | [] => [none]
              | d :: r =>
                if !isMore d then none :: items (d :: r)
                else some (Char.ofNat (three * 64 + sixBits d)) :: items r

def decodeLossy (bytes : List UInt8) : List Char := (items bytes).map fun c => c.getD '\uFFFD'

def decode? (bytes : List UInt8) : Option (List Char) := (items bytes).mapM id

def encode (s : List Char) : List UInt8 := s.flatMap String.utf8EncodeChar

/-! Formats whose markup is ASCII are read byte by byte, and only pieces of text are decoded. Until then
a byte is kept as the character with its number. -/

def undecoded (bytes : List UInt8) : List Char := bytes.map fun b => Char.ofNat b.toNat

/-- The bytes of a text that is not decoded. -/
def bytesOf (s : List Char) : List UInt8 := s.map fun c => UInt8.ofNat c.toNat

def decodePiece? (piece : List Char) : Option (List Char) := decode? (bytesOf piece)

/-- The bytes of a text as they stand undecoded. -/
def rawOf (s : String) : List Char := undecoded (encode s.toList)

def textOfRaw (s : List Char) : String := String.ofList (decodeLossy (bytesOf s))

end SparqlConformance.Utf8
