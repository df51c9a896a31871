import Mathlib.Data.List.Basic
import Mathlib.Data.Set.Function
import SparqlConformance.Answers.Solutions
/-!
# First sight

Labels in the order in which a sequence first names them. The numbers that a label gets along the way
are its places in that order, and two sequences that give equal numbers differ by a renaming.
-/
namespace SparqlConformance

/-- The labels of a sequence in the order in which they are first met. -/
def firstSeen (labels : List String) : Seen := declareAll [] labels

/-- The place of a label in the order of first sight. -/
def rank (labels : List String) (label : String) : Nat := (firstSeen labels).idxOf label

theorem number_fst (seen : Seen) (label : String) : (seen.number label).1 = seen.idxOf label := by
  unfold Seen.number
  cases h : seen.idxOf? label with
  | none => exact (List.idxOf_eq_length (List.idxOf?_eq_none_iff.mp h)).symm
  | some i =>
    obtain ⟨hi, hlabel, first⟩ := List.idxOf?_eq_some_iff.mp h
    have hle : seen.idxOf label ≤ i := by
      by_contra hlt
      have := List.not_of_lt_findIdx (Nat.lt_of_not_le hlt)
      simp [hlabel] at this
    have hmem : label ∈ seen := hlabel ▸ List.getElem_mem hi
    have hge : ¬ seen.idxOf label < i := fun hlt =>
      first _ hlt (List.getElem_idxOf (List.idxOf_lt_length_of_mem hmem))
    show i = seen.idxOf label
    omega

theorem number_snd (seen : Seen) (label : String) :
    (seen.number label).2 = declare seen label := by
  unfold Seen.number declare
  cases h : seen.idxOf? label with
  | none => rw [if_neg (List.idxOf?_eq_none_iff.mp h)]
  | some i =>
    have hmem : label ∈ seen := List.isSome_idxOf?.mp (by simp [h])
    rw [if_pos hmem]

theorem declare_extends (seen : Seen) (label : String) : seen <+: declare seen label := by
  unfold declare
  split
  · exact List.prefix_refl _
  · exact List.prefix_append _ _

theorem declareAll_extends (seen : Seen) (labels : List String) :
    seen <+: declareAll seen labels := by
  induction labels generalizing seen with
  | nil => exact List.prefix_refl _
  | cons l labels ih => exact (declare_extends seen l).trans (ih (declare seen l))

theorem declareAll_append (seen : Seen) (first second : List String) :
    declareAll seen (first ++ second) = declareAll (declareAll seen first) second :=
  List.foldl_append

theorem declareAll_of_subset {seen labels : List String} (h : ∀ label ∈ labels, label ∈ seen) :
    declareAll seen labels = seen := by
  induction labels with
  | nil => rfl
  | cons label labels ih =>
    have known : declare seen label = seen := if_pos (h label (List.mem_cons_self ..))
    rw [declareAll, List.foldl_cons, known]
    exact ih fun other hother => h other (List.mem_cons_of_mem _ hother)

/-- Labels met later do not move the ones met before. -/
theorem idxOf_extended {seen final : Seen} (h : seen <+: final) {label : String}
    (hmem : label ∈ seen) : final.idxOf label = seen.idxOf label := by
  obtain ⟨later, rfl⟩ := h
  exact List.idxOf_append_of_mem hmem

/-- A number given along the way is the place of the label in any later order. -/
theorem number_fst_of_extended {seen final : Seen} {label : String} (h : declare seen label <+: final) :
    (seen.number label).1 = final.idxOf label := by
  have hmem : label ∈ declare seen label := mem_declare.mpr (Or.inr rfl)
  rw [number_fst, idxOf_extended h hmem]
  by_cases known : label ∈ seen
  · rw [idxOf_extended (declare_extends seen label) known]
  · have hnew : declare seen label = seen ++ [label] := if_neg known
    rw [hnew, List.idxOf_append_of_notMem known, List.idxOf_eq_length known]
    simp

theorem map_declare {f : String → String} {seen : Seen} {label : String}
    (inj : ∀ l ∈ seen, f l = f label → l = label) :
    (declare seen label).map f = declare (seen.map f) (f label) := by
  unfold declare
  by_cases h : label ∈ seen
  · rw [if_pos h, if_pos (List.mem_map_of_mem h)]
  · have hnot : f label ∉ seen.map f := by
      intro hmem
      obtain ⟨l, hl, heq⟩ := List.mem_map.mp hmem
      exact h (inj l hl heq ▸ hl)
    rw [if_neg h, if_neg hnot, List.map_append, List.map_singleton]

theorem map_declareAll {f : String → String} {seen : Seen} {labels : List String}
    (inj : Set.InjOn f {l | l ∈ seen ∨ l ∈ labels}) :
    (declareAll seen labels).map f = declareAll (seen.map f) (labels.map f) := by
  induction labels generalizing seen with
  | nil => rfl
  | cons l labels ih =>
    have hstep : (declare seen l).map f = declare (seen.map f) (f l) :=
      map_declare fun k hk heq => inj (Or.inl hk) (Or.inr (List.mem_cons_self ..)) heq
    have hrest : Set.InjOn f {k | k ∈ declare seen l ∨ k ∈ labels} := by
      refine inj.mono ?_
      rintro k (hk | hk)
      · rcases mem_declare.mp hk with hk | rfl
        · exact Or.inl hk
        · exact Or.inr (List.mem_cons_self ..)
      · exact Or.inr (List.mem_cons_of_mem _ hk)
    show (declareAll (declare seen l) labels).map f = _
    rw [ih hrest, hstep]
    rfl

@[simp] theorem mem_firstSeen {labels : List String} {l : String} :
    l ∈ firstSeen labels ↔ l ∈ labels := by
  simp [firstSeen, mem_declareAll]

theorem nodup_firstSeen (labels : List String) : (firstSeen labels).Nodup :=
  nodup_declareAll List.nodup_nil labels

theorem firstSeen_map {f : String → String} {labels : List String}
    (inj : Set.InjOn f {l | l ∈ labels}) :
    firstSeen (labels.map f) = (firstSeen labels).map f := by
  have h : Set.InjOn f {l | l ∈ ([] : Seen) ∨ l ∈ labels} := by
    refine inj.mono ?_
    rintro l (hl | hl)
    · exact absurd hl (List.not_mem_nil)
    · exact hl
  exact (map_declareAll h).symm

theorem rank_lt {labels : List String} {l : String} (hl : l ∈ labels) :
    rank labels l < (firstSeen labels).length :=
  List.idxOf_lt_length_of_mem (mem_firstSeen.mpr hl)

theorem getElem?_rank {labels : List String} {l : String} (hl : l ∈ labels) :
    (firstSeen labels)[rank labels l]? = some l :=
  List.getElem?_eq_some_iff.mpr ⟨rank_lt hl, List.getElem_idxOf (rank_lt hl)⟩

theorem rank_inj {labels : List String} {a b : String} (ha : a ∈ labels)
    (h : rank labels a = rank labels b) : a = b :=
  (List.idxOf_inj (mem_firstSeen.mpr ha)).mp h

theorem rank_getElem {labels : List String} {i : Nat} (hi : i < (firstSeen labels).length) :
    rank labels (firstSeen labels)[i] = i :=
  (nodup_firstSeen labels).idxOf_getElem i hi

section Pairing

variable {labels others : List String} {f : String → String}

/-- Labels that are paired in the order of first sight have the same rank. -/
theorem rank_of_pairing (pairing : (firstSeen labels).map f = firstSeen others) {l : String}
    (hl : l ∈ labels) : rank others (f l) = rank labels l := by
  have hlt : rank labels l < (firstSeen others).length := by
    rw [← pairing, List.length_map]
    exact rank_lt hl
  have hget : (firstSeen others)[rank labels l] = f l := by
    have hsome : (firstSeen others)[rank labels l]? = some (f l) := by
      rw [← pairing, List.getElem?_map, getElem?_rank hl, Option.map_some]
    exact (List.getElem?_eq_some_iff.mp hsome).2
  rw [← hget]
  exact rank_getElem hlt

end Pairing

theorem rank_map {f : String → String} {labels : List String}
    (inj : Set.InjOn f {l | l ∈ labels}) {l : String} (hl : l ∈ labels) :
    rank (labels.map f) (f l) = rank labels l :=
  rank_of_pairing (firstSeen_map inj).symm hl

/-- Sequences whose labels have partners of the same rank differ by a renaming. -/
theorem exists_renaming {labels others : List String}
    (partner : ∀ l ∈ labels, ∃ m ∈ others, rank others m = rank labels l) :
    ∃ f : String → String, Set.InjOn f {l | l ∈ labels} ∧
      ∀ l ∈ labels, ∀ m ∈ others, rank others m = rank labels l → m = f l := by
  choose! f hf using partner
  refine ⟨f, ?_, ?_⟩
  · intro a ha b hb heq
    have hrank : rank labels a = rank labels b := by
      rw [← (hf a ha).2, ← (hf b hb).2, heq]
    exact rank_inj ha hrank
  · intro l hl m hm heq
    exact rank_inj hm (heq.trans (hf l hl).2.symm)

end SparqlConformance
