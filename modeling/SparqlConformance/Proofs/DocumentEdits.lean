import Mathlib
import SparqlConformance.Proofs.EqualGraphs
import SparqlConformance.Proofs.LabeledLines
/-!
# Edits that keep a graph

What may be done to the lines of a document without a trace in its canonical graph: other labels, a line
said again further down, lines that say nothing, space around lines. New labels have to be such that
the reader takes them as a whole; valid labels with a colon or with two dots in a row are not.
-/
namespace SparqlConformance

open Text Symbolic

/-- The labels of lines, in their order. -/
def lineLabels (ls : List (List Char)) : List String :=
  labelsBy (fun l => (openTriple (trim l)).labels) ls

/-- A line that is another one under new labels, whatever space is around the two. -/
def RelabelsLine (f : String → String) (line edited : List Char) : Prop :=
  trim edited = fill f (openTriple (trim line))

/-- Changes of the lines of a document. -/
inductive Edit : List (List Char) → List (List Char) → Prop
  | rename {ls ms : List (List Char)} (f : String → String)
      (inj : Set.InjOn f {l | l ∈ lineLabels ls}) (whole : ∀ l ∈ lineLabels ls, IsWholeLabel (f l))
      (lines : List.Forall₂ (RelabelsLine f) ls ms) : Edit ls ms
  | again (before : List (List Char)) (line : List Char) (between after : List (List Char)) :
      Edit (before ++ line :: (between ++ after)) (before ++ line :: (between ++ line :: after))
  | silent (before : List (List Char)) (line : List Char) (after : List (List Char))
      (empty : NTriples.isSilent (trim line) = true) : Edit (before ++ after) (before ++ line :: after)
  | space (before : List (List Char)) (line : List Char) (after : List (List Char))
      (left right : List Char) (spaces : ∀ c ∈ left ++ right, isSpace c = true) :
      Edit (before ++ line :: after) (before ++ (left ++ line ++ right) :: after)

section Labels

variable {label : String}

end Labels

/-- Valid labels that are both cut off at the dots. -/
def dotted (label : String) : String := if label = "x" then "a..b" else "a..c"

end SparqlConformance
