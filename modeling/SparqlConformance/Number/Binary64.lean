import SparqlConformance.Number.Power
/-!
# Binary64

Finite numbers of the double format without their sign: a mantissa below 2^53 times a power of two. Sums,
products and quotients are rounded once from the exact result, to the nearest number and of two equally
near ones to the even one.
-/
namespace SparqlConformance

/-- The number `mantissa * 2 ^ exponent`; the mantissa is at least 2^52 unless the exponent is the
lowest one. -/
structure Binary64 where
  mantissa : Nat
  exponent : Int
  deriving DecidableEq, Repr, Inhabited

namespace Binary64

def lowestExponent : Int := -1074

def highestExponent : Int := 971

def zero : Binary64 := ⟨0, lowestExponent⟩

/-- The quotient rounded to a whole number, halves to even. -/
def roundDiv (num den : Nat) : Nat :=
  let q := num / den
  let r := num % den
  if 2 * r < den then q
  else if den < 2 * r then q + 1
  else if q % 2 = 0 then q else q + 1

/-- The fraction `num / den / 2 ^ e` as a pair. -/
def scaled (num den : Nat) (e : Int) : Nat × Nat :=
  if e < 0 then (num * twoTo (-e).toNat, den) else (num, den * twoTo e.toNat)

/-- The number nearest to a fraction; none if that is too large. -/
def ofRatio? (num den : Nat) : Option Binary64 :=
  if num = 0 then some zero
  else
    let guess := (num.log2 : Int) - den.log2 - 53
    let (n, d) := scaled num den guess
    let e := max lowestExponent (if n / d < twoTo 53 then guess else guess + 1)
    let (n, d) := scaled num den e
    let m := roundDiv n d
    let (m, e) := if m = twoTo 53 then (twoTo 52, e + 1) else (m, e)
    if highestExponent < e then none else some ⟨m, e⟩

/-- The number as an exact fraction. -/
def ratio (x : Binary64) : Nat × Nat :=
  if x.exponent < 0 then (x.mantissa, twoTo (-x.exponent).toNat)
  else (x.mantissa * twoTo x.exponent.toNat, 1)

def isZero (x : Binary64) : Bool := x.mantissa == 0

def ofNat? (n : Nat) : Option Binary64 := ofRatio? n 1

def mul? (x y : Binary64) : Option Binary64 :=
  ofRatio? (x.ratio.1 * y.ratio.1) (x.ratio.2 * y.ratio.2)

def div? (x y : Binary64) : Option Binary64 :=
  ofRatio? (x.ratio.1 * y.ratio.2) (x.ratio.2 * y.ratio.1)

def add? (x y : Binary64) : Option Binary64 :=
  ofRatio? (x.ratio.1 * y.ratio.2 + y.ratio.1 * x.ratio.2) (x.ratio.2 * y.ratio.2)

end Binary64

end SparqlConformance
