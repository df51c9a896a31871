/-!
# White space

The Unicode property `White_Space`, and the operations on texts that depend on it. A text is handled
as its list of characters; the functions on `String` only convert.
-/
namespace SparqlConformance.Text

/-- The characters with the Unicode property `White_Space`. -/
def isSpace (c : Char) : Bool :=
  let n := c.toNat
  (9 ≤ n && n ≤ 13) || n == 0x20 || n == 0x85 || n == 0xA0 || n == 0x1680
    || (0x2000 ≤ n && n ≤ 0x200A) || n == 0x2028 || n == 0x2029 || n == 0x202F
    || n == 0x205F || n == 0x3000

theorem isSpace_of_isWhitespace (c : Char) (h : c.isWhitespace = true) : isSpace c = true := by
  simp only [Char.isWhitespace, Bool.or_eq_true, decide_eq_true_eq] at h
  rcases h with ((rfl | rfl) | rfl) | rfl <;> decide

def trimStart (s : List Char) : List Char := s.dropWhile isSpace

def trimEnd (s : List Char) : List Char := (s.reverse.dropWhile isSpace).reverse

/-- Removes white space at both ends. -/
def trim (s : List Char) : List Char := trimEnd (trimStart s)

/-- The maximal runs of characters that are not white space. -/
def words : List Char → List (List Char)
  | [] => []
  | c :: r =>
    if isSpace c then words r
    else match r with
      | [] => [[c]]
      | d :: _ =>
        if isSpace d then [c] :: words r
        else match words r with
          | [] => [[c]]
          | w :: ws => (c :: w) :: ws

end SparqlConformance.Text

namespace SparqlConformance

def trimText (s : String) : String := String.ofList (Text.trim s.toList)

end SparqlConformance
