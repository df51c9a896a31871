import Mathlib.Data.List.Perm.Subperm
import SparqlConformance.Proofs.JoinedPaths
import SparqlConformance.Proofs.PatchHunks
import SparqlConformance.Proofs.WrittenNumbers
/-!
# The text of a diff

Reading a unified diff back, line by line: the heads of hunks, and lines that are marked as kept, deleted or inserted.
Where no line holds a line feed the text tells the hunks that it was written for, so what it tells leads from the expected
lines to the actual ones.
-/
namespace SparqlConformance.Diff

open Text

/-! ## Reading -/

/-- What one line of a diff says. -/
inductive PatchLine
  | head (oldStart oldCount newStart newCount : Nat)
  | line (edit : Edit) (text : String)
  deriving DecidableEq, Repr

/-- What the lines of a hunk say, its head first. -/
def ShownHunk.said (h : ShownHunk) : List PatchLine :=
  .head h.oldStart h.oldCount h.newStart h.newCount :: h.lines.map fun l => .line l.1 l.2

/-- The text of some lines, each ended by a line feed. -/
def ended (ls : List (List Char)) : List Char := ls.flatMap (· ++ ['\n'])

end SparqlConformance.Diff
