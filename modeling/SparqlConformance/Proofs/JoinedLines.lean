import Mathlib.Data.List.Basic
import SparqlConformance.Text.Lines
/-!
# Joined lines

Lines that hold no line feed, are not empty and do not end in a carriage return come apart again after
they are joined. Each of these conditions is needed.
-/
namespace SparqlConformance

open Text

theorem trim_eq_self {c d : Char} (hc : isSpace c = false) (hd : isSpace d = false) (m : List Char) :
    trim (c :: (m ++ [d])) = c :: (m ++ [d]) := by
  have hstart : trimStart (c :: (m ++ [d])) = c :: (m ++ [d]) := by simp [trimStart, hc]
  rw [trim, hstart, trimEnd, ← List.cons_append, List.reverse_append]
  simp [hd]

/-- A character that ends no line belongs to the line it stands in. -/
theorem lines_cons {c : Char} {s : List Char} (feed : c ≠ '\n')
    (ret : c = '\r' → s.head? ≠ some '\n') :
    lines (c :: s) = match lines s with
      | [] => [[c]]
      | l :: ls => (c :: l) :: ls := by
  refine lines.eq_4 c s feed ?_
  rintro r hc rfl
  exact ret hc rfl

theorem lines_append_feed {l : List Char} (h : '\n' ∉ l) (last : l.getLast? ≠ some '\r')
    (rest : List Char) : lines (l ++ '\n' :: rest) = l :: lines rest := by
  induction l with
  | nil => rfl
  | cons c l ih =>
    simp only [List.mem_cons, not_or] at h
    have hlast : l.getLast? ≠ some '\r' := by
      intro heq
      refine last ?_
      rw [List.getLast?_cons, heq]
      rfl
    have ret : c = '\r' → (l ++ '\n' :: rest).head? ≠ some '\n' := by
      rintro rfl hhead
      cases l with
      | nil => exact last rfl
      | cons d l => exact h.2 (Option.some.inj hhead ▸ List.mem_cons_self ..)
    rw [List.cons_append, lines_cons (Ne.symm h.1) ret, ih h.2 hlast]

end SparqlConformance
