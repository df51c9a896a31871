import Mathlib
import SparqlConformance.Proofs.SolutionMatching
/-!
# Strict comparison of solutions

What the verdict of the strict comparison means. It never calls sequences the same that no renaming
of labels makes equal, and it is an equivalence that does not look at how variables are declared.
-/
namespace SparqlConformance

theorem bijOn_labels {f : String → String} {actual expected : Solutions}
    (inj : Set.InjOn f {l | l ∈ actual.labels})
    (perm : (actual.rows.map (Solution.relabel f)).Perm expected.rows) :
    Set.BijOn f {l | l ∈ actual.labels} {l | l ∈ expected.labels} := by
  have mem_iff : ∀ l, l ∈ expected.labels ↔ ∃ k ∈ actual.labels, f k = l := by
    intro l
    rw [Solutions.labels, mem_labelsBy_labels]
    constructor
    · rintro ⟨e, he, hl⟩
      obtain ⟨a, ha, rfl⟩ := List.mem_map.mp (perm.mem_iff.mpr he)
      rw [Solution.labels_relabel] at hl
      obtain ⟨k, hk, rfl⟩ := List.mem_map.mp hl
      exact ⟨k, mem_labelsBy_labels.mpr ⟨a, ha, hk⟩, rfl⟩
    · rintro ⟨k, hk, rfl⟩
      obtain ⟨a, ha, hka⟩ := mem_labelsBy_labels.mp hk
      refine ⟨a.relabel f, perm.mem_iff.mp (List.mem_map_of_mem ha), ?_⟩
      rw [Solution.labels_relabel]
      exact List.mem_map_of_mem hka
  refine ⟨fun k hk => (mem_iff _).mpr ⟨k, hk, rfl⟩, inj, ?_⟩
  intro l hl
  exact (mem_iff l).mp hl

/-- No false equality: solutions that compare as the same are paired by a renaming of labels, row by
row when an order counts. -/
theorem renaming_of_strict_same {actual expected : Solutions} (full : actual.fidelity = .full)
    (hactual : actual.IsDelimited) (hexpected : expected.IsDelimited)
    (same : (Answer.solutions actual).compare (.solutions expected) .strict = .same) :
    ∃ f : String → String, Set.BijOn f {l | l ∈ actual.labels} {l | l ∈ expected.labels} ∧
      ∃ rows : List Solution, rows.Perm expected.rows ∧
        (actual.ordered = true ∨ expected.ordered = true → rows = expected.rows) ∧
        List.Forall₂ (fun a e => ∀ v, e.get? v = (a.get? v).map (Term.relabel f))
          actual.rows rows := by
  obtain ⟨f, inj, arranged⟩ := (strict_same_iff_arrange full hactual hexpected).mp same
  have perm : (actual.rows.map (Solution.relabel f)).Perm expected.rows := by
    have h := (arrange_perm (columnOrder expected actual) (expected.ordered || actual.ordered)
      actual.rows).map (Solution.relabel f)
    rw [← arranged] at h
    exact h.symm.trans (arrange_perm _ _ _)
  refine ⟨f, bijOn_labels inj perm, actual.rows.map (Solution.relabel f), perm, ?_, ?_⟩
  · intro hordered
    have horder : (expected.ordered || actual.ordered) = true := by
      rw [Bool.or_comm]
      simpa using hordered
    rw [horder] at arranged
    exact arranged.symm
  · rw [List.forall₂_map_right_iff, List.forall₂_same]
    exact fun a _ v => Solution.get?_relabel f a v

/-- A blank node that is shared by two solutions, one of which leaves a variable unbound. -/
def sharedNode : Solutions :=
  (Solutions.ofVariables ["x", "y"]).pushAll
    [.ofPairs [("x", .blank "b")], .ofPairs [("x", .blank "a"), ("y", .blank "b")]]

/-- The same solutions under other labels, with the variables declared in another order. -/
def renamedNode : Solutions :=
  (Solutions.ofVariables ["y", "x"]).pushAll
    [.ofPairs [("x", .blank "n")], .ofPairs [("x", .blank "m"), ("y", .blank "n")]]

theorem renaming_of_shared_node :
    ∃ f : String → String, Set.BijOn f {l | l ∈ sharedNode.labels} {l | l ∈ renamedNode.labels} ∧
      ∃ rows : List Solution, rows.Perm renamedNode.rows ∧
        (sharedNode.ordered = true ∨ renamedNode.ordered = true → rows = renamedNode.rows) ∧
        List.Forall₂ (fun a e => ∀ v, e.get? v = (a.get? v).map (Term.relabel f))
          sharedNode.rows rows := by
  have same : (Answer.solutions sharedNode).compare (.solutions renamedNode) .strict = .same := by
    cbv
  exact renaming_of_strict_same rfl (by decide) (by decide) same

/-- Whether the strict comparison finds no difference. -/
def verdict (actual expected : Solutions) : Bool :=
  ((Answer.solutions actual).compare (.solutions expected) .strict).isSame

theorem isSame_iff (c : Comparison) : c.isSame = true ↔ c = .same := by
  cases c <;> simp [Comparison.isSame]

namespace Solutions

/-- Solutions that keep all of their terms, with terms that tell where they end. -/
structure IsPlain (b : Solutions) : Prop where
  full : b.fidelity = .full
  delimited : b.IsDelimited

/-- The same solutions under other declarations of variables. -/
structure Redeclares (other b : Solutions) : Prop where
  rows : other.rows = b.rows
  ordered : other.ordered = b.ordered
  fidelity : other.fidelity = b.fidelity

theorem Redeclares.isPlain {other b : Solutions} (h : other.Redeclares b) (hb : b.IsPlain) :
    other.IsPlain := by
  refine ⟨h.fidelity.trans hb.full, ?_⟩
  intro r hr
  exact hb.delimited r (h.rows ▸ hr)

end Solutions

theorem verdict_iff_renames {actual expected : Solutions} (hactual : actual.IsPlain)
    (hexpected : expected.IsPlain) :
    verdict actual expected = true ↔
      Renames (expected.ordered || actual.ordered) actual.rows expected.rows := by
  rw [verdict, isSame_iff]
  exact strict_same_iff_renames hactual.full hactual.delimited hexpected.delimited

/-- The verdict is an equivalence, and does not look at how variables are declared. -/
theorem verdict_equivalence {x y z : Solutions} (hx : x.IsPlain) (hy : y.IsPlain) (hz : z.IsPlain)
    (hxy : x.ordered = y.ordered) (hyz : y.ordered = z.ordered) :
    verdict x x = true ∧ verdict x y = verdict y x ∧
      (verdict x y = true → verdict y z = true → verdict x z = true) ∧
      ∀ x' y', x'.Redeclares x → y'.Redeclares y → verdict x' y' = verdict x y := by
  refine ⟨?_, ?_, ?_, ?_⟩
  · exact (verdict_iff_renames hx hx).mpr (Renames.refl _ _)
  · have flip : verdict x y = true ↔ verdict y x = true := by
      rw [verdict_iff_renames hx hy, verdict_iff_renames hy hx, Bool.or_comm]
      exact ⟨Renames.symm, Renames.symm⟩
    exact Bool.eq_iff_iff.mpr flip
  · rw [verdict_iff_renames hx hy, verdict_iff_renames hy hz, verdict_iff_renames hx hz, hxy, hyz]
    exact Renames.trans
  · intro x' y' hx' hy'
    have moved : verdict x' y' = true ↔ verdict x y = true := by
      rw [verdict_iff_renames (hx'.isPlain hx) (hy'.isPlain hy), verdict_iff_renames hx hy,
        hx'.rows, hy'.rows, hx'.ordered, hy'.ordered]
    exact Bool.eq_iff_iff.mpr moved

theorem verdict_equivalence_of_shared_node :
    verdict sharedNode sharedNode = true ∧
      verdict sharedNode renamedNode = verdict renamedNode sharedNode ∧
      (verdict sharedNode renamedNode = true → verdict renamedNode sharedNode = true →
        verdict sharedNode sharedNode = true) ∧
      ∀ x' y', x'.Redeclares sharedNode → y'.Redeclares renamedNode →
        verdict x' y' = verdict sharedNode renamedNode := by
  have plain : sharedNode.IsPlain := ⟨rfl, by decide⟩
  have plain_renamed : renamedNode.IsPlain := ⟨rfl, by decide⟩
  exact verdict_equivalence plain plain_renamed plain rfl rfl

end SparqlConformance
