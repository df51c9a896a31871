import SparqlConformance.Number.Binary64
/-!
# Fixed decimals

Numbers with a fixed count of decimals, rounded from the exact value with halves to even; and times,
which are counted in microseconds and written as numbers of seconds.
-/
namespace SparqlConformance

/-- The digits of `n` with a point before the last `places` of them. -/
def pointed (n places : Nat) : List Char :=
  let digits := Nat.toDigits 10 (n % tenTo places)
  Nat.toDigits 10 (n / tenTo places)
    ++ '.' :: (List.replicate (places - digits.length) '0' ++ digits)

namespace Binary64

def fixed (x : Binary64) (places : Nat) : String :=
  String.ofList (pointed (roundDiv (x.ratio.1 * tenTo places) x.ratio.2) places)

/-- Seconds of a time: the sum of the rounded whole and the rounded fractional seconds. -/
def seconds? (microseconds : Nat) : Option Binary64 := do
  let whole ← ofNat? (microseconds / 1000000)
  let part ← ofRatio? (microseconds % 1000000) 1000000
  whole.add? part

end Binary64

def secondsText (microseconds places : Nat) : String :=
  ((Binary64.seconds? microseconds).getD .zero).fixed places

end SparqlConformance
