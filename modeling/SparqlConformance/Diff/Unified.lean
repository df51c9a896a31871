import SparqlConformance.Diff.Middle
import SparqlConformance.Diff.Readable
/-!
# Unified diffs

Scripts for two lists of lines, and their text: hunks of changed lines with up to three common lines
before and after. A hunk's head gives its place and length in both lists; the place of no lines is the
number of lines before them. Lines are compared by symbols, and where these run out all lines are replaced.
-/
namespace SparqlConformance.Diff

section script

variable {α : Type} [DecidableEq α]

/-- Where one list occurs in another one. -/
def find? (part whole : List α) : Option Nat :=
  match whole with
  | [] => if part.isEmpty then some 0 else none
  | _ :: r => if part.isPrefixOf whole then some 0 else (find? part r).map (· + 1)

/-- A merged script of two lists. The common beginning and end are kept; lists that contain one another
differ by what stands around; others are cut in two where a shortest path can be cut. -/
def scriptWith (fuel : Nat) (old new : List α) : Script α :=
  match fuel with
  | 0 => [⟨.delete, old⟩, ⟨.insert, new⟩]
  | fuel + 1 =>
    let start := commonStart old new
    let old := old.drop start.length
    let new := new.drop start.length
    let stop := commonEnd old new
    let old := old.take (old.length - stop.length)
    let new := new.take (new.length - stop.length)
    merge (keptUnlessEmpty start ++ between fuel old new ++ keptUnlessEmpty stop)
where
  /-- A script of lists with no common beginning and no common end. -/
  between (fuel : Nat) (old new : List α) : Script α :=
    if old.isEmpty || new.isEmpty then editsOf old new
    else
      let inside := if new.length < old.length then find? new old else find? old new
      match inside with
      | some n =>
        if new.length < old.length then
          [⟨.delete, old.take n⟩, ⟨.keep, new⟩, ⟨.delete, old.drop (n + new.length)⟩]
        else [⟨.insert, new.take n⟩, ⟨.keep, old⟩, ⟨.insert, new.drop (n + old.length)⟩]
      | none =>
        if old.length = 1 ∨ new.length = 1 then [⟨.delete, old⟩, ⟨.insert, new⟩]
        else match middle? old new with
          | none => [⟨.delete, old⟩, ⟨.insert, new⟩]
          | some (x, y) =>
            scriptWith fuel (old.take x) (new.take y) ++ scriptWith fuel (old.drop x) (new.drop y)

/-- A readable script of two lists. -/
def script (old new : List α) : Script α :=
  merge (readable (scriptWith (old.length + new.length + 1) old new))

end script

/-- How many symbols there are for different lines. -/
def symbolCount : Nat := 0x100000

/-- Counts a line unless it was the last one, too. -/
def countNext (counted : Nat × Option String) (line : String) : Nat × Option String :=
  if counted.2 = some line then counted else (counted.1 + 1, some line)

/-- How many different lines there are. -/
def distinctCount (lines : List String) : Nat :=
  ((lines.mergeSort fun a b => decide (a ≤ b)).foldl countNext (0, none)).1

/-- All lines of one list go, and all lines of the other come. -/
def replacement (expected actual : List String) : List (Edit × String) :=
  expected.map (Edit.delete, ·) ++ actual.map (Edit.insert, ·)

/-- The edits between two lists of lines: a readable script, as long as the symbols last. -/
def lineEdits (expected actual : List String) : List (Edit × String) :=
  if symbolCount < distinctCount (expected ++ actual) then replacement expected actual
  else (script expected actual).items

def contextLines : Nat := 3

/-- The places of the lines that change. -/
def changes (lines : List (Edit × String)) : List Nat :=
  lines.zipIdx.filterMap fun ((e, _), place) => if e = .keep then none else some place

/-- The windows around changes, given a window that ends with the last change before them. -/
def windowsFrom (size start stop : Nat) : List Nat → List (Nat × Nat)
  | [] => [(start, stop)]
  | change :: rest =>
    let first := change - contextLines
    let last := min (change + contextLines + 1) size
    if first ≤ stop then windowsFrom size start last rest
    else (start, stop) :: windowsFrom size first last rest

/-- The windows of lines to show, as places of their first line and after their last one. -/
def windows (size : Nat) : List Nat → List (Nat × Nat)
  | [] => []
  | change :: rest =>
    windowsFrom size (change - contextLines) (min (change + contextLines + 1) size) rest

structure Hunk where
  oldBefore : Nat
  newBefore : Nat
  lines : List (Edit × String)
  deriving DecidableEq, Repr

namespace Hunk

def oldCount (lines : List (Edit × String)) : Nat := lines.countP fun l => l.1 != .insert

def newCount (lines : List (Edit × String)) : Nat := lines.countP fun l => l.1 != .delete

def mark : Edit → String
  | .keep => " "
  | .delete => "-"
  | .insert => "+"

/-- The place of lines with the given number of lines before them. -/
def place (before count : Nat) : Nat := if count = 0 then before else before + 1

def text (h : Hunk) : String :=
  let old := oldCount h.lines
  let new := newCount h.lines
  s!"@@ -{place h.oldBefore old},{old} +{place h.newBefore new},{new} @@\n" ++
    String.join (h.lines.map fun (e, line) => mark e ++ line ++ "\n")

end Hunk

def hunks (lines : List (Edit × String)) : List Hunk :=
  (windows lines.length (changes lines)).map fun (start, stop) =>
    let before := lines.take start
    ⟨Hunk.oldCount before, Hunk.newCount before, (lines.drop start).take (stop - start)⟩

/-- The text of a list of hunks. -/
def unifiedText (hunks : List Hunk) : String :=
  "--- expected\n+++ actual\n" ++ String.join (hunks.map Hunk.text)

/-- The unified diff of two lists of lines. -/
def unified (expected actual : List String) : String :=
  unifiedText (hunks (lineEdits expected actual))

end SparqlConformance.Diff
