import SparqlConformance.Machine.Shell.Word
import SparqlConformance.Number.Power
import SparqlConformance.Text.CharClass
/-!
# Arithmetic

The expressions of the shell over 64-bit numbers, as in `$((i + 1))`. Comparisons give 1 or 0.
-/
namespace SparqlConformance.Shell.Arithmetic

/-- A number of 64 bits with a sign. -/
def wrap (n : Int) : Int := Int.bmod n (twoTo 64)

inductive Token
  | number (n : Int)
  | name (s : List Char)
  | sign (s : String)
  deriving DecidableEq, Repr

def signs : List String :=
  ["<<", ">>", "<=", ">=", "==", "!=", "&&", "||", "+", "-", "*", "/", "%", "<", ">", "&", "|", "^",
    "~", "!", "(", ")", "?", ":"]

/-- A number as it is written: octal after a zero, hexadecimal after `0x`. -/
def number? (s : List Char) : Option Int :=
  let read (base : Nat) (s : List Char) : Option Int :=
    (Text.unsigned? base (fun c => (Text.hexDigit? c).filter (· < base)) s).map Int.ofNat
  match s with
  | ['0'] => some 0
  | '0' :: 'x' :: r | '0' :: 'X' :: r => read 16 r
  | '0' :: r => read 8 r
  | s => read 10 s

def tokens : Nat → List Char → Option (List Token)
  | _, [] => some []
  | 0, _ => none
  | fuel + 1, c :: r =>
    if c == ' ' || c == '\t' || c == '\n' then tokens fuel r
    else if c.isDigit then
      let digits := c :: r.takeWhile Char.isAlphanum
      (number? digits).bind fun n => (tokens fuel (r.dropWhile Char.isAlphanum)).map (.number n :: ·)
    else if isNameStart c then
      let (name, rest) := cutName (c :: r)
      (tokens fuel rest).map (.name name :: ·)
    else
      match signs.find? fun s => s.toList.isPrefixOf (c :: r) with
      | some s => (tokens fuel ((c :: r).drop s.length)).map (.sign s :: ·)
      | none => none

/-- How tightly an operator binds. -/
def strength? : String → Option Nat
  | "||" => some 1
  | "&&" => some 2
  | "|" => some 3
  | "^" => some 4
  | "&" => some 5
  | "==" | "!=" => some 6
  | "<" | ">" | "<=" | ">=" => some 7
  | "<<" | ">>" => some 8
  | "+" | "-" => some 9
  | "*" | "/" | "%" => some 10
  | _ => none

def truth (b : Bool) : Int := if b then 1 else 0

/-- The bits of a number, as those of a natural number. -/
def bits (n : Int) : Nat := (n % twoTo 64).toNat

def operate (operator : String) (a b : Int) : Option Int :=
  match operator with
  | "||" => some (truth (a != 0 || b != 0))
  | "&&" => some (truth (a != 0 && b != 0))
  | "|" => some (wrap (bits a ||| bits b))
  | "^" => some (wrap (bits a ^^^ bits b))
  | "&" => some (wrap (bits a &&& bits b))
  | "==" => some (truth (a == b))
  | "!=" => some (truth (a != b))
  | "<" => some (truth (a < b))
  | ">" => some (truth (a > b))
  | "<=" => some (truth (a ≤ b))
  | ">=" => some (truth (a ≥ b))
  | "<<" => some (wrap (a * twoTo (bits b % 64)))
  | ">>" => some (Int.fdiv a (twoTo (bits b % 64)))
  | "+" => some (wrap (a + b))
  | "-" => some (wrap (a - b))
  | "*" => some (wrap (a * b))
  | "/" => if b = 0 then none else some (wrap (Int.tdiv a b))
  | "%" => if b = 0 then none else some (Int.tmod a b)
  | _ => none

variable (value : List Char → Int)

/-- Reads an expression whose operators bind at least as tightly as given; an operand comes first. -/
def evaluate : Nat → Nat → List Token → Option (Int × List Token)
  | 0, _, _ => none
  | fuel + 1, least, ts => do
    let (a, ts) ← match ts with
      | .number n :: ts => some (n, ts)
      | .name s :: ts => some (value s, ts)
      | .sign "(" :: ts =>
        match evaluate fuel 0 ts with
        | some (n, .sign ")" :: ts) => some (n, ts)
        | _ => none
      | .sign "-" :: ts => (evaluate fuel 11 ts).map fun (n, ts) => (wrap (-n), ts)
      | .sign "+" :: ts => evaluate fuel 11 ts
      | .sign "!" :: ts => (evaluate fuel 11 ts).map fun (n, ts) => (truth (n == 0), ts)
      | .sign "~" :: ts => (evaluate fuel 11 ts).map fun (n, ts) => (wrap (-n - 1), ts)
      | _ => none
    operators fuel least a ts
where
  /-- Goes on with operators after an operand. -/
  operators : Nat → Nat → Int → List Token → Option (Int × List Token)
    | 0, _, _, _ => none
    | fuel + 1, least, a, ts =>
      match ts with
      | .sign "?" :: ts =>
        if 0 < least then some (a, .sign "?" :: ts)
        else match evaluate fuel 0 ts with
          | some (yes, .sign ":" :: ts) =>
            (evaluate fuel 0 ts).map fun (no, ts) => (if a != 0 then yes else no, ts)
          | _ => none
      | .sign s :: ts =>
        match strength? s with
        | none => some (a, .sign s :: ts)
        | some n =>
          if n < least then some (a, .sign s :: ts)
          else do
            let (b, ts) ← evaluate fuel (n + 1) ts
            operators fuel least (← operate s a b) ts
      | ts => some (a, ts)

/-- The value of an expression; none if it is not well formed or divides by zero. -/
def eval? (s : List Char) : Option Int :=
  (tokens (s.length + 1) s).bind fun ts =>
    if ts.isEmpty then some 0
    else match evaluate value (2 * ts.length + 2) 0 ts with
      | some (n, []) => some n
      | _ => none

end SparqlConformance.Shell.Arithmetic
