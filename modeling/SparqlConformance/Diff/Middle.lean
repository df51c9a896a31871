/-!
# Middle of an edit path

Where a shortest way of editing one list into another one can be cut in two. Paths are followed from
both ends at once; `front` and `back` hold, for each diagonal, how far a path on it has come, and the
places are met in a fixed order, so that of several shortest ways always the same one is found.
-/
namespace SparqlConformance.Diff

variable {α : Type} [DecidableEq α]

/-- How far two lists agree from two places on. -/
def agreement (old new : Array α) (x y : Nat) (fuel : Nat) : Nat :=
  match fuel with
  | 0 => 0
  | fuel + 1 =>
    match old[x]?, new[y]? with
    | some a, some b => if a = b then agreement old new (x + 1) (y + 1) fuel + 1 else 0
    | _, _ => 0

/-- Paths from one end, and the bounds of the diagonals that are still on the grid. -/
structure Frontier where
  reached : Array Int
  low : Int
  high : Int

/-- One search: the lists, the same lists reversed, and the diagonal where the ends meet. -/
structure Search (α : Type) where
  old : Array α
  new : Array α
  oldBack : Array α
  newBack : Array α
  bound : Nat

namespace Search

def delta (s : Search α) : Int := (s.old.size : Int) - s.new.size

/-- The paths meet while the front moves when the difference of the lengths is odd. -/
def meetsInFront (s : Search α) : Bool := s.delta % 2 != 0

def entry (s : Search α) (reached : Array Int) (k : Int) : Int :=
  if (s.bound : Int) + k < 0 then -1 else reached.getD (s.bound + k).toNat (-1)

/-- How far a path with `d` edits comes on diagonal `k`. -/
def reach (s : Search α) (old new : Array α) (reached : Array Int) (d k : Int) : Nat :=
  let below := s.entry reached (k - 1)
  let above := s.entry reached (k + 1)
  let x := (if k = -d ∨ (k ≠ d ∧ below < above) then above else below + 1).toNat
  let y := ((x : Int) - k).toNat
  x + agreement old new x y (old.size + 1)

/-- Moves the paths with `d` edits on the diagonals from `k` on. Gives the place where they meet the
other paths, or the new frontier. -/
def advance (s : Search α) (front : Bool) (other : Array Int) (d : Int) :
    Nat → Int → Frontier → Except (Nat × Nat) Frontier
  | 0, _, f => .ok f
  | fuel + 1, k, f =>
    if d - f.high < k then .ok f
    else
      let (old, new) := if front then (s.old, s.new) else (s.oldBack, s.newBack)
      let x := s.reach old new f.reached d k
      let y := (x : Int) - k
      let f := { f with reached := f.reached.setIfInBounds (s.bound + k).toNat x }
      if s.old.size < x then s.advance front other d fuel (k + 2) { f with high := f.high + 2 }
      else if (s.new.size : Int) < y then
        s.advance front other d fuel (k + 2) { f with low := f.low + 2 }
      else
        let met := s.entry other (s.delta - k)
        if front = s.meetsInFront ∧ met ≠ -1 ∧ (s.old.size : Int) ≤ x + met then
          if front then .error (x, y.toNat)
          else .error (met.toNat, (met - (s.delta - k)).toNat)
        else s.advance front other d fuel (k + 2) f

/-- Takes turns at both ends until the paths meet. -/
def meet (s : Search α) : Nat → Nat → Frontier → Frontier → Option (Nat × Nat)
  | 0, _, _, _ => none
  | fuel + 1, d, f, b =>
    match s.advance true b.reached d (d + 1) (-d + f.low) f with
    | .error place => some place
    | .ok f =>
      match s.advance false f.reached d (d + 1) (-d + b.low) b with
      | .error place => some place
      | .ok b => s.meet fuel (d + 1) f b

end Search

/-- Where to cut two lists; none if they have nothing in common. -/
def middle? (old new : List α) : Option (Nat × Nat) :=
  let bound := (old.length + new.length + 1) / 2
  let search : Search α :=
    ⟨old.toArray, new.toArray, old.reverse.toArray, new.reverse.toArray, bound⟩
  let start : Frontier := ⟨(Array.replicate (2 * bound) (-1)).setIfInBounds (bound + 1) 0, 0, 0⟩
  search.meet bound 0 start start

end SparqlConformance.Diff
