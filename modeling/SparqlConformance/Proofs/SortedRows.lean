import SparqlConformance.Proofs.RowText
/-!
# Sorted rows

Rows in the order of their sort keys. Two sorted sequences show the same keys and values exactly when
their classes of equal keys do, class by class.
-/
namespace SparqlConformance

section Sorting

variable (columns : List String) (rows : List Solution)

theorem sortRows_eq :
    sortRows columns rows = rows.mergeSort fun a b => decide (sortKey columns a ≤ sortKey columns b) :=
  mergeSort_keyed (sortKey columns) rows

theorem sortRows_perm : (sortRows columns rows).Perm rows := by
  rw [sortRows_eq]
  exact List.mergeSort_perm rows _

theorem sortRows_sorted :
    (sortRows columns rows).Pairwise fun a b => sortKey columns a ≤ sortKey columns b := by
  rw [sortRows_eq]
  exact sorted_mergeSort (sortKey columns) rows

/-- Sorting keeps the order of the rows with one key. -/
theorem keyClass_sortRows (k : String) :
    keyClass (sortKey columns) k (sortRows columns rows) = keyClass (sortKey columns) k rows := by
  rw [sortRows_eq]
  exact keyClass_mergeSort (sortKey columns) k rows

end Sorting

/-- Sorted rows show the same keys and values exactly when each class of rows does. -/
theorem map_sortRows_eq_iff {γ : Type} {p q : Solution → γ} {columns : List String}
    {rows others : List Solution} :
    (sortRows columns rows).map (fun r => (sortKey columns r, p r)) =
        (sortRows columns others).map (fun r => (sortKey columns r, q r)) ↔
      ∀ k, (keyClass (sortKey columns) k rows).map p =
        (keyClass (sortKey columns) k others).map q := by
  constructor
  · intro h k
    have hclass := map_keyClass_of_map_eq h k
    rwa [keyClass_sortRows, keyClass_sortRows] at hclass
  · intro h
    refine map_eq_of_keyClasses (sortRows_sorted columns rows) (sortRows_sorted columns others) ?_
    intro k
    rw [keyClass_sortRows, keyClass_sortRows]
    exact h k

end SparqlConformance
