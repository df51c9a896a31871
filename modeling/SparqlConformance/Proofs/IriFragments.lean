import SparqlConformance.Proofs.IriCharacters
import SparqlConformance.Proofs.WrittenTerms
/-!
# Fragments of IRIs

An IRI without a fragment stays an IRI when a fragment is added to it.
-/
namespace SparqlConformance.Iri

open Text

theorem cutFirst_eq_none {c : Char} {s : List Char} (h : c ∉ s) : cutFirst c s = none := by
  induction s with
  | nil => rfl
  | cons d s ih =>
    rw [List.mem_cons, not_or] at h
    rw [cutFirst, if_neg (Ne.symm h.1), ih h.2, Option.map_none]

theorem escapedAll_of_all {ok : Char → Bool} {s : List Char} (h : ∀ c ∈ s, ok c = true ∧ c ≠ '%') :
    escapedAll ok s = true := by
  induction s with
  | nil => rfl
  | cons c s ih =>
    obtain ⟨hc, escape⟩ := h c List.mem_cons_self
    have hs := ih fun d hd => h d (List.mem_cons_of_mem _ hd)
    rw [escapedAll.eq_def]
    split
    · rfl
    · rename_i start
      exact absurd (List.cons.inj start).1 escape
    · rename_i start
      obtain ⟨rfl, rfl⟩ := List.cons.inj start
      rw [hc, hs]
      rfl

/-- A character that stops a span stops it wherever the text before it does not. -/
theorem span_append_stop {p : Char → Bool} {c : Char} (stop : p c = false) (s t : List Char) :
    (s ++ c :: t).span p = ((s.span p).1, (s.span p).2 ++ c :: t) := by
  rw [List.span_eq_takeWhile_dropWhile, List.span_eq_takeWhile_dropWhile]
  induction s with
  | nil => simp [stop]
  | cons d s ih =>
    obtain ⟨front, back⟩ := Prod.mk.inj ih
    rw [List.cons_append, List.takeWhile_cons, List.dropWhile_cons, List.takeWhile_cons, List.dropWhile_cons]
    split
    · rw [front, back]
    · rfl

section Fragment

variable {s fragment : List Char} (plain : '#' ∉ s) (hf : escapedAll isFragmentChar fragment = true)
include plain hf

theorem isTail_append_fragment (h : isTail s = true) : isTail (s ++ '#' :: fragment) = true := by
  unfold isTail at h ⊢
  rw [cutFirst_eq_none plain, Option.getD_none] at h
  rw [cutFirst_append plain, Option.getD_some]
  dsimp only at h ⊢
  rw [Bool.and_eq_true] at h
  rw [h.1, hf]
  rfl

theorem isHierarchy_append_fragment (h : isHierarchy s = true) :
    isHierarchy (s ++ '#' :: fragment) = true := by
  unfold isHierarchy at h
  split at h
  · rename_i r
    rw [Bool.and_eq_true] at h
    have tail : '#' ∉ (r.span fun c => c != '/' && c != '?' && c != '#').2 := by
      rw [List.span_eq_takeWhile_dropWhile]
      intro hmem
      exact plain (List.mem_cons_of_mem _ (List.mem_cons_of_mem _ ((List.dropWhile_suffix _).subset hmem)))
    rw [List.cons_append, List.cons_append, isHierarchy, span_append_stop (by decide)]
    dsimp only
    rw [h.1, isTail_append_fragment tail hf h.2]
    rfl
  · rename_i other
    have apart : ∀ r, s ++ '#' :: fragment ≠ '/' :: '/' :: r := by
      intro r text
      match s, other with
      | [], _ => cases text
      | [c], _ =>
        have second := (List.cons.inj (List.cons.inj text).2).1
        cases second
      | c :: d :: t, other =>
        obtain ⟨rfl, rest⟩ := List.cons.inj text
        obtain ⟨rfl, _⟩ := List.cons.inj rest
        exact other t rfl
    unfold isHierarchy
    split
    · rename_i r text
      exact absurd text (apart r)
    · exact isTail_append_fragment plain hf h

omit hf in
theorem afterScheme?_append_fragment {scheme rest : List Char} (h : afterScheme? s = some (scheme, rest))
    (fragment : List Char) : afterScheme? (s ++ '#' :: fragment) = some (scheme, rest ++ '#' :: fragment) ∧ '#' ∉ rest := by
  unfold afterScheme? at h
  split at h
  · rename_i c t
    split at h
    · rename_i alpha
      split at h
      · rename_i front back cut
        obtain ⟨rfl, rfl⟩ := Prod.mk.inj (Option.some.inj h)
        have whole := span_append_stop (p := isSchemeChar) (c := '#') (by decide) (c :: t) fragment
        rw [cut] at whole
        refine ⟨?_, fun hmem => plain ?_⟩
        · rw [List.cons_append, afterScheme?, if_pos alpha, ← List.cons_append, whole]
          rfl
        · rw [List.span_eq_takeWhile_dropWhile] at cut
          refine (List.dropWhile_suffix isSchemeChar).subset ?_
          rw [(Prod.mk.inj cut).2]
          exact List.mem_cons_of_mem _ hmem
      · cases h
    · cases h
  · cases h

theorem isAbsolute_append_fragment (h : isAbsolute s = true) : isAbsolute (s ++ '#' :: fragment) = true := by
  unfold isAbsolute at h ⊢
  split at h
  · rename_i scheme rest found
    obtain ⟨found', plain'⟩ := afterScheme?_append_fragment plain found fragment
    rw [found']
    exact isHierarchy_append_fragment plain' hf h
  · cases h

end Fragment

end SparqlConformance.Iri
