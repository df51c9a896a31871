import Mathlib
import SparqlConformance.Proofs.StrictComparison
/-!
# Ordered comparison and labels

What the strict comparison is when an order counts: row by row, under one bijection of labels. And what
the names of labels do to any strict comparison: nothing, down to the explanation of a difference.
-/
namespace SparqlConformance

namespace Solutions

/-- The solutions with their blank nodes renamed. -/
def relabel (f : String → String) (b : Solutions) : Solutions where
  vars := b.vars
  rows := b.rows.map (Solution.relabel f)
  ordered := b.ordered
  fidelity := b.fidelity
  nodup := b.nodup
  declared := by
    intro r hr v hv
    obtain ⟨row, hrow, rfl⟩ := List.mem_map.mp hr
    rw [Solution.names_relabel] at hv
    exact b.declared row hrow v hv

end Solutions

section Renaming

variable {columns : List String} {rows : List Solution} {f : String → String}

theorem sortRows_relabel (key_relabel : ∀ r ∈ rows, sortKey columns (r.relabel f) = sortKey columns r) :
    sortRows columns (rows.map (Solution.relabel f)) =
      (sortRows columns rows).map (Solution.relabel f) := by
  have keyed : (rows.map (Solution.relabel f)).map (fun r => (sortKey columns r, r)) =
      (rows.map fun r => (sortKey columns r, r)).map fun a => (a.1, a.2.relabel f) := by
    rw [List.map_map, List.map_map]
    apply List.map_congr_left
    intro r hr
    simp only [Function.comp_apply, key_relabel r hr]
  have sorted : ((rows.map fun r => (sortKey columns r, r)).mergeSort
        fun a b => decide (a.1 ≤ b.1)).map (fun a => (a.1, a.2.relabel f)) =
      ((rows.map fun r => (sortKey columns r, r)).map fun a => (a.1, a.2.relabel f)).mergeSort
        fun a b => decide (a.1 ≤ b.1) :=
    List.map_mergeSort fun _ _ _ _ => rfl
  rw [sortRows, sortRows, keyed, ← sorted, List.map_map, List.map_map]
  rfl

theorem arrange_relabel (covered : ∀ r ∈ rows, ∀ v ∈ r.names, v ∈ columns)
    (inj : Set.InjOn f {l | l ∈ labelsBy Solution.labels rows}) (ordered : Bool) :
    arrange columns ordered (rows.map (Solution.relabel f)) =
      (arrange columns ordered rows).map (Solution.relabel f) := by
  cases ordered with
  | true => rfl
  | false => exact sortRows_relabel (sortKey_relabel_of_mem covered inj)

/-- Labels are numbered in the canonical text, so it does not show how they were called. -/
theorem render_relabel {b : Solutions} (covered : ∀ r ∈ b.rows, ∀ v ∈ r.names, v ∈ columns)
    (inj : Set.InjOn f {l | l ∈ b.labels}) (ordered : Bool) :
    (b.relabel f).render columns ordered = b.render columns ordered := by
  have covered_arranged : ∀ r ∈ arrange columns ordered b.rows, ∀ v ∈ r.names, v ∈ columns :=
    fun r hr => covered r (mem_arrange.mp hr)
  have inj_arranged : Set.InjOn f
      {l | l ∈ labelsBy (labelsIn columns) (arrange columns ordered b.rows)} :=
    inj.mono fun l hl => (mem_labelsBy_arrange covered l).mp hl
  show header columns :: renderRows 'b' columns []
    (arrange columns ordered (b.rows.map (Solution.relabel f))) = _
  rw [arrange_relabel covered inj, renderRows_relabel 'b' covered_arranged inj_arranged]
  rfl

end Renaming

/-- Rows are renamed one by one when they are as many and each binds what its partner binds. -/
theorem eq_map_relabel_iff {rows others : List Solution} {f : String → String} :
    others = rows.map (Solution.relabel f) ↔
      rows.length = others.length ∧ ∀ (i : Nat) (r o : Solution), rows[i]? = some r →
        others[i]? = some o → ∀ v, o.get? v = (r.get? v).map (Term.relabel f) := by
  constructor
  · rintro rfl
    refine ⟨(List.length_map _).symm, fun i r o hr ho v => ?_⟩
    rw [List.getElem?_map, hr, Option.map_some] at ho
    rw [← Option.some.inj ho, Solution.get?_relabel]
  · rintro ⟨length, paired⟩
    apply List.ext_getElem?
    intro i
    rw [List.getElem?_map]
    by_cases hi : i < rows.length
    · have hr : rows[i]? = some rows[i] := List.getElem?_eq_getElem hi
      have hi' : i < others.length := length ▸ hi
      have ho : others[i]? = some others[i] := List.getElem?_eq_getElem hi'
      rw [hr, ho, Option.map_some]
      refine congrArg some (Solution.ext_get? fun v => ?_)
      rw [Solution.get?_relabel]
      exact paired i _ _ hr ho v
    · rw [List.getElem?_eq_none (Nat.le_of_not_lt hi),
        List.getElem?_eq_none (length ▸ Nat.le_of_not_lt hi)]
      rfl

variable {actual expected : Solutions}

/-- When an order counts, rows are the same exactly when one bijection of labels takes each row to the
row in its place; and labels are never looked at, whether an order counts or not. -/
theorem strict_ordered_iff_and_relabel (hactual : actual.IsPlain) (hexpected : expected.IsPlain) :
    (actual.ordered = true ∨ expected.ordered = true →
      ((Answer.solutions actual).compare (.solutions expected) .strict = .same ↔
        actual.size = expected.size ∧
          ∃ f : String → String, Set.BijOn f {l | l ∈ actual.labels} {l | l ∈ expected.labels} ∧
            ∀ (i : Nat) (a e : Solution), actual.rows[i]? = some a → expected.rows[i]? = some e →
              ∀ v, e.get? v = (a.get? v).map (Term.relabel f))) ∧
      ∀ f g : String → String, Set.InjOn f {l | l ∈ actual.labels} →
        Set.InjOn g {l | l ∈ expected.labels} →
          (Answer.solutions (actual.relabel f)).compare (.solutions (expected.relabel g)) .strict =
            (Answer.solutions actual).compare (.solutions expected) .strict := by
  constructor
  · intro ordered
    have horder : (expected.ordered || actual.ordered) = true := by
      rw [Bool.or_comm]
      simpa using ordered
    rw [strict_same_iff_renames hactual.full hactual.delimited hexpected.delimited, horder]
    constructor
    · rintro ⟨f, inj, matched⟩
      have paired : expected.rows = actual.rows.map (Solution.relabel f) := matched Solution.empty
      obtain ⟨length, rows⟩ := eq_map_relabel_iff.mp paired
      exact ⟨length, f, bijOn_labels inj (.of_eq paired.symm), rows⟩
    · rintro ⟨length, f, bijective, rows⟩
      exact ⟨f, bijective.injOn, fun _ => eq_map_relabel_iff.mpr ⟨length, rows⟩⟩
  · intro f g injf injg
    have full : (actual.relabel f).fidelity = .full := hactual.full
    have columns : columnOrder (expected.relabel g) (actual.relabel f) = columnOrder expected actual := rfl
    rw [compare_strict_of_full hactual.full, compare_strict_of_full full, columns, render_relabel (fun r hr => covered_columnOrder (Or.inl hr)) injf,
      render_relabel (fun r hr => covered_columnOrder (Or.inr hr)) injg]
    rfl

/-- The shared blank node in an answer whose order counts. -/
def orderedNode : Solutions := sharedNode.withOrder true

theorem strict_ordered_iff_of_shared_node :
    (orderedNode.ordered = true ∨ renamedNode.ordered = true) ∧
      ((Answer.solutions orderedNode).compare (.solutions renamedNode) .strict = .same ↔
        orderedNode.size = renamedNode.size ∧
          ∃ f : String → String, Set.BijOn f {l | l ∈ orderedNode.labels} {l | l ∈ renamedNode.labels} ∧
            ∀ (i : Nat) (a e : Solution), orderedNode.rows[i]? = some a →
              renamedNode.rows[i]? = some e → ∀ v, e.get? v = (a.get? v).map (Term.relabel f)) ∧
      (Answer.solutions (orderedNode.relabel fun l => l ++ "!")).compare (.solutions renamedNode) .strict =
        (Answer.solutions orderedNode).compare (.solutions renamedNode) .strict := by
  have plain : orderedNode.IsPlain := ⟨rfl, by decide⟩
  have plain_renamed : renamedNode.IsPlain := ⟨rfl, by decide⟩
  obtain ⟨exact, relabeled⟩ := strict_ordered_iff_and_relabel plain plain_renamed
  have kept : renamedNode.relabel id = renamedNode := by decide
  have inj : Set.InjOn (fun l => l ++ "!") {l | l ∈ orderedNode.labels} := fun _ _ _ _ h => by
    simpa [← String.toList_inj] using h
  have h := relabeled (fun l => l ++ "!") id inj Function.injective_id.injOn
  rw [kept] at h
  exact ⟨Or.inl rfl, exact (Or.inl rfl), h⟩

end SparqlConformance
