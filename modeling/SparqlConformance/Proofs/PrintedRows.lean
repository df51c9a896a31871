import Mathlib.Data.List.Forall2
import SparqlConformance.Proofs.PrintedValues
/-!
# Printed rows

Rows printed on lines of their own, between other lines, are read as they were printed, exactly when each
value is printed in a form that is kept.
-/
namespace SparqlConformance.Simple

open Text

/-- A name and a form of the value under it. -/
structure Cell where
  name : String
  form : Form
  deriving DecidableEq

namespace Cell

def text (cell : Cell) : List Char := cell.name.toList ++ '=' :: cell.form.text

/-- Whether the name and the value can be printed. -/
structure IsPrintable (cell : Cell) : Prop where
  name : IsPlainName cell.name
  form : cell.form.IsPrintable

instance (cell : Cell) : Decidable cell.IsPrintable :=
  decidable_of_iff (IsPlainName cell.name ∧ cell.form.IsPrintable)
    ⟨fun ⟨name, form⟩ => ⟨name, form⟩, fun h => ⟨h.name, h.form⟩⟩

end Cell

/-- The cells of a row as they stand between its brackets. -/
def cellsText (cells : List Cell) : List Char := join [',', ' '] (cells.map Cell.text)

def rowText (cells : List Cell) : List Char := "row: [".toList ++ (cellsText cells ++ [']'])

theorem trimStart_append {lead : List Char} (spaces : ∀ c ∈ lead, isSpace c = true) (s : List Char) :
    Text.trimStart (lead ++ s) = Text.trimStart s :=
  List.dropWhile_append_of_pos spaces

/-- Reading rows is reading every line that is one. -/
theorem readRows_eq_ok_iff {number : Nat} {lines : List (List Char)} {rows : List Solution} :
    readRows number lines = .ok rows ↔
      List.Forall₂ (fun line row => readRow line = .ok row) (lines.filterMap rowOfLine?) rows := by
  induction lines generalizing number rows with
  | nil =>
    rw [List.filterMap_nil, List.forall₂_nil_left_iff, readRows]
    exact ⟨fun h => (Except.ok.inj h).symm, fun h => congrArg Except.ok h.symm⟩
  | cons line lines ih =>
    rw [readRows]
    cases found : rowOfLine? line with
    | none =>
      rw [List.filterMap_cons_none found]
      exact ih
    | some body =>
      rw [List.filterMap_cons_some found]
      dsimp only
      cases here : readRow body with
      | error fault =>
        refine iff_of_false nofun ?_
        intro h
        cases h with
        | cons first _ => cases here.symm.trans first
      | ok row =>
        constructor
        · intro h
          cases later : readRows (number + 1) lines with
          | error e =>
            rw [later] at h
            cases h
          | ok others =>
            rw [later] at h
            obtain rfl := Except.ok.inj h
            exact .cons here (ih.mp later)
        · intro h
          cases h with
          | cons first others =>
            obtain rfl := Except.ok.inj (here.symm.trans first)
            dsimp only
            rw [ih.mpr others]
            rfl

theorem rows_pushAll (b : Solutions) (rows : List Solution) : (b.pushAll rows).rows = b.rows ++ rows := by
  induction rows generalizing b with
  | nil => simp [Solutions.pushAll]
  | cons row rows ih =>
    have step : (b.push row).rows = b.rows ++ [row] := rfl
    rw [Solutions.pushAll, List.foldl_cons]
    exact (ih (b.push row)).trans (by rw [step, List.append_assoc]; rfl)

end SparqlConformance.Simple
