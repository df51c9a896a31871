import SparqlConformance.Rdf.Names
/-!
# ASCII characters

Letters and digits by their numbers, and the classes of characters that they belong to.
-/
namespace SparqlConformance

open Text

/-- The numbers of the ASCII letters. -/
theorem isAlpha_iff {c : Char} :
    c.isAlpha = true ↔ (65 ≤ c.toNat ∧ c.toNat ≤ 90) ∨ (97 ≤ c.toNat ∧ c.toNat ≤ 122) := by
  change (decide (c.val ≥ 'A'.val ∧ c.val ≤ 'Z'.val) ||
    (decide (c.val ≥ 'a'.val) && decide (c.val ≤ 'z'.val))) = true ↔ _
  rw [Bool.or_eq_true, Bool.and_eq_true, decide_eq_true_eq, decide_eq_true_eq, decide_eq_true_eq]
  exact Iff.rfl

theorem isDigit_iff {c : Char} : c.isDigit = true ↔ 48 ≤ c.toNat ∧ c.toNat ≤ 57 := by
  change (decide (c.val ≥ '0'.val) && decide (c.val ≤ '9'.val)) = true ↔ _
  rw [Bool.and_eq_true, decide_eq_true_eq, decide_eq_true_eq]
  exact Iff.rfl

theorem isNameBase_of_isAlpha {c : Char} (h : c.isAlpha = true) : isNameBase c = true := by
  rw [isAlpha_iff] at h
  simp only [isNameBase, inRanges, List.any_cons, Bool.or_eq_true, Bool.and_eq_true,
    decide_eq_true_eq]
  omega

/-- Letters and digits may stand in a label. -/
theorem isNameChar_of_isAlphanum {c : Char} (h : c.isAlphanum = true) : isNameChar c = true := by
  rw [Char.isAlphanum, Bool.or_eq_true] at h
  rcases h with alpha | digit
  · simp [isNameChar, isNameBase_of_isAlpha alpha]
  · simp [isNameChar, digit]

/-- Letters and digits may start a label in N-Triples. -/
theorem startsLabel_of_isAlphanum {c : Char} (h : c.isAlphanum = true) :
    (isNameBase c || c == '_' || c.isDigit) = true := by
  rw [Char.isAlphanum, Bool.or_eq_true] at h
  rcases h with alpha | digit
  · simp [isNameBase_of_isAlpha alpha]
  · simp [digit]

end SparqlConformance
