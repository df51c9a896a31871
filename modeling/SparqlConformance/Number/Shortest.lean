import SparqlConformance.Number.Binary64
/-!
# Shortest decimals

The decimal with the fewest digits that rounds to a given number, and of several the nearest one. On each
decimal grid only the two neighbours of the number have to be looked at.
-/
namespace SparqlConformance.Binary64

/-- The digits of a positive decimal; the first one stands for units of `10 ^ exponent`. -/
structure Decimal where
  digits : List Char
  exponent : Int
  deriving DecidableEq, Repr, Inhabited

/-- The fraction of a number of quarters of the unit of `x`. -/
def quarters (x : Binary64) (n : Nat) : Nat × Nat :=
  if x.exponent < 0 then (n, 4 * twoTo (-x.exponent).toNat) else (n * twoTo x.exponent.toNat, 4)

/-- The ends of the interval of the numbers that round to `x`, in quarters of its unit. -/
def interval (x : Binary64) : Nat × Nat :=
  let low := if x.mantissa = twoTo 52 ∧ lowestExponent < x.exponent then 1 else 2
  (4 * x.mantissa - low, 4 * x.mantissa + 2)

/-- Whether the fraction `num / den` rounds to `x`; the ends do when the mantissa is even. -/
def roundsTo (x : Binary64) (num den : Nat) : Bool :=
  let (low, scale) := x.quarters x.interval.1
  let (high, _) := x.quarters x.interval.2
  if x.mantissa % 2 = 0 then low * den ≤ num * scale && num * scale ≤ high * den
  else low * den < num * scale && num * scale < high * den

/-- The whole number of digits in front of the point of a positive fraction; not positive below one. -/
def magnitude (num den : Nat) : Int :=
  if den ≤ num then (Nat.toDigits 10 (num / den)).length
  else
    let d := (Nat.toDigits 10 (den / num)).length
    if den ≤ num * tenTo (d - 1) then 1 - ((d : Int) - 1) else 1 - d

/-- The better of the two neighbours of `x` on the grid of `10 ^ grid`, if one rounds to `x`. -/
def onGrid? (x : Binary64) (grid : Int) : Option Nat :=
  let (num, den) := x.ratio
  let (num, den) := if grid < 0 then (num * tenTo (-grid).toNat, den) else (num, den * tenTo grid.toNat)
  let below := num / den
  let rounds (n : Nat) : Bool :=
    0 < n && if grid < 0 then x.roundsTo n (tenTo (-grid).toNat) else x.roundsTo (n * tenTo grid.toNat) 1
  match rounds below, rounds (below + 1) with
  | true, true => some (roundDiv num den)
  | true, false => some below
  | false, true => some (below + 1)
  | false, false => none

def shortestFrom (x : Binary64) (top : Int) : Nat → Nat → Decimal
  | 0, _ => ⟨['0'], 0⟩
  | fuel + 1, places =>
    match x.onGrid? (top - places) with
    | some n =>
      let digits := Nat.toDigits 10 n
      let shown := (digits.reverse.dropWhile (· == '0')).reverse
      ⟨shown, top - places + digits.length - 1⟩
    | none => shortestFrom x top fuel (places + 1)

/-- The shortest decimal of a positive number; seventeen digits always suffice. -/
def shortest (x : Binary64) : Decimal :=
  let (num, den) := x.ratio
  shortestFrom x (magnitude num den) 17 1

end SparqlConformance.Binary64
