import Mathlib.Data.List.Chain
import Mathlib.Data.List.Dedup
import SparqlConformance.Proofs.KeyedLists
import SparqlConformance.Proofs.ScriptSides
/-!
# Hunks

The windows around the changed lines stand one behind the other, with something between them, and no change is
outside of them. So the hunks tell all there is to do: they show the lines of both lists at their places, what
stands between them is common to both, and putting the one side of each in the place of the other turns
the one list into the other.
-/
namespace SparqlConformance.Diff

/-! ## The two sides of edited lines -/

/-- The lines of all edits but one. -/
def linesWithout (dropped : Edit) (lines : List (Edit × String)) : List String :=
  (lines.filter fun l => l.1 != dropped).map Prod.snd

/-- The lines that stand in the new list. -/
def newLines (lines : List (Edit × String)) : List String := linesWithout .delete lines

section Slices

variable (dropped : Edit) (lines : List (Edit × String))

end Slices

/-! ## Windows -/

/-- One of the lists has no line there, or another one. -/
def ChangesAt (lines : List (Edit × String)) (i : Nat) : Prop := ∃ l, lines[i]? = some l ∧ l.1 ≠ .keep

/-- Windows behind a place, with room before each of them but perhaps the first one, and no change outside. -/
inductive Covers (lines : List (Edit × String)) : Nat → Nat → List (Nat × Nat) → Prop
  | done {room place : Nat} (rest : ∀ i, place ≤ i → ¬ ChangesAt lines i) : Covers lines room place []
  | window {room place start stop : Nat} {more : List (Nat × Nat)} (apart : place + room ≤ start)
      (nonempty : start < stop) (within : stop ≤ lines.length)
      (before : ∀ i, place ≤ i → i < start → ¬ ChangesAt lines i) (behind : Covers lines 1 stop more) :
      Covers lines room place ((start, stop) :: more)

theorem Covers.within {lines : List (Edit × String)} {room place : Nat} {ws : List (Nat × Nat)}
    (covers : Covers lines room place ws) : ∀ w ∈ ws, w.1 < w.2 ∧ w.2 ≤ lines.length := by
  induction covers with
  | done => exact fun w hw => absurd hw List.not_mem_nil
  | window _ nonempty within _ _ ih => exact List.forall_mem_cons.mpr ⟨⟨nonempty, within⟩, ih⟩

/-- Between two windows there are lines, and none of them changes. -/
theorem Covers.apart {lines : List (Edit × String)} {room place : Nat} {ws : List (Nat × Nat)}
    (covers : Covers lines room place ws) : ws.IsChain fun v w =>
      v.1 < v.2 ∧ v.2 < w.1 ∧ w.1 ≤ lines.length ∧ ∀ i, v.2 ≤ i → i < w.1 → ¬ ChangesAt lines i := by
  induction covers with
  | done => exact .nil
  | window _ nonempty _ _ behind ih =>
    cases behind with
    | done => exact .singleton _
    | window apart _ _ before _ => exact List.isChain_cons_cons.mpr ⟨⟨nonempty, by omega, by omega, before⟩, ih⟩

/-! ## Hunks as they are shown -/

/-- A hunk as its text tells it: where it starts in both lists, how many lines it has there, and its lines. -/
structure ShownHunk where
  oldStart : Nat
  oldCount : Nat
  newStart : Nat
  newCount : Nat
  lines : List (Edit × String)
  deriving DecidableEq, Repr

/-- How many lines stand before a place: the start is the first line there, or that number if there is none. -/
def linesBefore (start count : Nat) : Nat := if count = 0 then start else start - 1

namespace ShownHunk

def oldBefore (h : ShownHunk) : Nat := linesBefore h.oldStart h.oldCount

def newBefore (h : ShownHunk) : Nat := linesBefore h.newStart h.newCount

end ShownHunk

def Hunk.shown (h : Hunk) : ShownHunk where
  oldStart := place h.oldBefore (oldCount h.lines)
  oldCount := oldCount h.lines
  newStart := place h.newBefore (newCount h.lines)
  newCount := newCount h.lines
  lines := h.lines

section Places

variable (lines : List (Edit × String)) {w : Nat × Nat}

variable (ordered : w.1 ≤ w.2)

include ordered

end Places

end SparqlConformance.Diff
