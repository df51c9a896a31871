import SparqlConformance.Files.Path
/-!
# Joined paths

The steps of a path are what is between its slashes, without the parts that name nothing. A path that is
joined to a place takes the steps of the place and then its own, and absolute paths have the same
components if they take the same steps.
-/
namespace SparqlConformance

open Text

theorem splitAt_sep (sep : Char) (s : List Char) : splitAt sep (sep :: s) = [] :: splitAt sep s := by
  rw [splitAt, if_pos rfl]

theorem splitAt_ne_nil (sep : Char) (s : List Char) : splitAt sep s ≠ [] := by
  cases s with
  | nil => exact List.cons_ne_nil _ _
  | cons c s =>
    unfold splitAt
    split
    · exact List.cons_ne_nil _ _
    · split
      · exact List.cons_ne_nil _ _
      · exact List.cons_ne_nil _ _

/-- Any other character joins the first piece. -/
theorem splitAt_cons {sep c : Char} (h : c ≠ sep) (s : List Char) :
    ∃ p ps, splitAt sep s = p :: ps ∧ splitAt sep (c :: s) = (c :: p) :: ps := by
  obtain ⟨p, ps, hs⟩ := List.exists_cons_of_ne_nil (splitAt_ne_nil sep s)
  refine ⟨p, ps, hs, ?_⟩
  rw [splitAt, if_neg h, hs]

theorem splitAt_of_not_mem {sep : Char} {s : List Char} (h : sep ∉ s) : splitAt sep s = [s] := by
  induction s with
  | nil => rfl
  | cons c s ih =>
    rw [List.mem_cons, not_or] at h
    rw [splitAt, if_neg (Ne.symm h.1), ih h.2]

/-- Texts come apart where a separator joins them. -/
theorem splitAt_append (sep : Char) (s t : List Char) :
    splitAt sep (s ++ sep :: t) = splitAt sep s ++ splitAt sep t := by
  induction s with
  | nil => exact splitAt_sep sep t
  | cons c s ih =>
    by_cases h : c = sep
    · rw [h, List.cons_append, splitAt_sep, splitAt_sep, ih, List.cons_append]
    · obtain ⟨p, ps, hs, hcs⟩ := splitAt_cons h s
      obtain ⟨q, qs, hst, hcst⟩ := splitAt_cons h (s ++ sep :: t)
      rw [ih, hs, List.cons_append] at hst
      obtain ⟨rfl, rfl⟩ := List.cons.inj hst
      rw [List.cons_append, hcst, hcs, List.cons_append]

/-- The pieces of a text hold no separator. -/
theorem not_mem_of_mem_splitAt {sep : Char} {s p : List Char} (h : p ∈ splitAt sep s) : sep ∉ p := by
  induction s generalizing p with
  | nil =>
    rw [List.mem_singleton.mp h]
    exact List.not_mem_nil
  | cons c s ih =>
    by_cases hc : c = sep
    · rw [hc, splitAt_sep] at h
      rcases List.mem_cons.mp h with rfl | h
      · exact List.not_mem_nil
      · exact ih h
    · obtain ⟨q, qs, hs, hcs⟩ := splitAt_cons hc s
      rw [hcs] at h
      rw [hs] at ih
      rcases List.mem_cons.mp h with rfl | h
      · exact List.not_mem_cons_of_ne_of_not_mem (Ne.symm hc) (ih List.mem_cons_self)
      · exact ih (List.mem_cons_of_mem _ h)

/-- Pieces with a separator in front of each come apart again. -/
theorem splitAt_flatMap_cons {sep : Char} {ps : List (List Char)} (h : ∀ p ∈ ps, sep ∉ p) :
    splitAt sep (ps.flatMap (sep :: ·)) = [] :: ps := by
  induction ps with
  | nil => rfl
  | cons p ps ih =>
    rw [List.flatMap_cons, List.cons_append, splitAt_sep]
    cases ps with
    | nil =>
      rw [List.flatMap_nil, List.append_nil, splitAt_of_not_mem (h p List.mem_cons_self)]
    | cons q qs =>
      have rest := ih fun r hr => h r (List.mem_cons_of_mem _ hr)
      rw [List.flatMap_cons, List.cons_append] at rest ⊢
      rw [splitAt_sep] at rest
      rw [splitAt_append, splitAt_of_not_mem (h p List.mem_cons_self), (List.cons.inj rest).2]
      rfl

namespace Path

def steps (p : Path) : List (List Char) := (splitAt '/' p.text.toList).filter fun s => !isIdle s

variable {p q place : Path}

theorem isAbsolute_iff : p.isAbsolute = true ↔ ∃ s, p.text.toList = '/' :: s := by
  unfold isAbsolute
  cases p.text.toList with
  | nil => simp
  | cons c s => simp

theorem names_of_isAbsolute (h : p.isAbsolute = true) : p.names = p.steps := by
  obtain ⟨s, hs⟩ := isAbsolute_iff.mp h
  unfold names parts steps
  rw [hs, splitAt_sep]
  rfl

theorem same_iff_steps (hp : p.isAbsolute = true) (hq : q.isAbsolute = true) :
    p.same q = true ↔ p.steps = q.steps := by
  unfold same
  rw [names_of_isAbsolute hp, names_of_isAbsolute hq, hp, hq]
  simp

theorem same_refl (p : Path) : p.same p = true := by
  simp [same]

theorem same_congr (h : p.same q = true) (r : Path) : p.same r = q.same r := by
  simp only [same, Bool.and_eq_true, beq_iff_eq] at h
  rw [same, same, h.1, h.2]

theorem not_mem_of_mem_steps {s : List Char} (h : s ∈ p.steps) : '/' ∉ s :=
  not_mem_of_mem_splitAt (List.mem_filter.mp h).1

theorem not_idle_of_mem_steps {s : List Char} (h : s ∈ p.steps) : isIdle s = false := by
  have kept := (List.mem_filter.mp h).2
  rwa [Bool.not_eq_true'] at kept

/-- A path that is written step by step takes these steps. -/
theorem steps_of_text {ps : List (List Char)} (slash : ∀ s ∈ ps, '/' ∉ s)
    (busy : ∀ s ∈ ps, isIdle s = false) (text : p.text.toList = ps.flatMap ('/' :: ·)) :
    p.steps = ps := by
  unfold steps
  rw [text, splitAt_flatMap_cons slash, List.filter_cons_of_neg (by decide), List.filter_eq_self]
  intro s hs
  rw [busy s hs, Bool.not_false]

theorem join_of_isAbsolute (h : p.isAbsolute = true) : place.join p = p := if_pos h

/-- A relative path stands behind its place, with one slash between them at most, or alone. -/
theorem text_join_cases (place : Path) (hp : p.isAbsolute = false) :
    (place.text.toList = [] ∧ (place.join p).text.toList = p.text.toList) ∨
      (∃ front, place.text.toList = front ++ ['/'] ∧
        (place.join p).text.toList = front ++ '/' :: p.text.toList) ∨
      (place.text.toList ≠ [] ∧
        (place.join p).text.toList = place.text.toList ++ '/' :: p.text.toList) := by
  unfold join
  rw [hp, if_neg Bool.false_ne_true]
  dsimp only
  by_cases empty : place.text.toList = []
  · refine .inl ⟨empty, ?_⟩
    rw [empty, if_pos (by simp), String.toList_append, empty, List.nil_append]
  · refine .inr ?_
    by_cases ends : place.text.toList.getLast? = some '/'
    · obtain ⟨front, hfront⟩ := List.getLast?_eq_some_iff.mp ends
      refine .inl ⟨front, hfront, ?_⟩
      rw [ends, if_pos (by simp), String.toList_append, hfront, List.append_assoc,
        List.singleton_append]
    · refine .inr ⟨empty, ?_⟩
      rw [if_neg (by simp [empty, ends]), String.toList_append, String.toList_append,
        List.append_assoc]
      rfl

/-- A relative path stands behind an absolute place, with one slash between them at most. -/
theorem text_join (hplace : place.isAbsolute = true) (hp : p.isAbsolute = false) :
    (∃ front, place.text.toList = front ++ ['/'] ∧
        (place.join p).text.toList = front ++ '/' :: p.text.toList) ∨
      (place.join p).text.toList = place.text.toList ++ '/' :: p.text.toList := by
  obtain ⟨s, hs⟩ := isAbsolute_iff.mp hplace
  rcases text_join_cases place hp with ⟨empty, -⟩ | behind | ⟨-, text⟩
  · rw [hs] at empty
    cases empty
  · exact .inl behind
  · exact .inr text

theorem isAbsolute_join (h : place.isAbsolute = true) : (place.join p).isAbsolute = true := by
  cases hp : p.isAbsolute with
  | true => rwa [join_of_isAbsolute hp]
  | false =>
    obtain ⟨s, hs⟩ := isAbsolute_iff.mp h
    refine isAbsolute_iff.mpr ?_
    rcases text_join h hp with ⟨front, hfront, text⟩ | text
    · rw [text]
      cases front with
      | nil => exact ⟨_, rfl⟩
      | cons c front =>
        rw [hs, List.cons_append] at hfront
        rw [← (List.cons.inj hfront).1]
        exact ⟨_, rfl⟩
    · rw [text, hs]
      exact ⟨_, rfl⟩

/-- A relative path goes on from its place. -/
theorem steps_join (hplace : place.isAbsolute = true) (hp : p.isAbsolute = false) :
    (place.join p).steps = place.steps ++ p.steps := by
  unfold steps
  rcases text_join hplace hp with ⟨front, hfront, text⟩ | text
  · rw [text, hfront, splitAt_append, splitAt_append, List.filter_append, List.filter_append,
      List.append_assoc]
    rfl
  · rw [text, splitAt_append, List.filter_append]

end Path

end SparqlConformance
