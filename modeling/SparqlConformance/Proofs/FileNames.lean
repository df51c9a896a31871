import Mathlib.Data.List.Induction
import SparqlConformance.Proofs.IriCharacters
import SparqlConformance.Proofs.JoinedPaths
/-!
# File names

The name of an absolute path is its last step, cut into a stem and an extension. Another extension changes
that step and no other one.
-/
namespace SparqlConformance

open Text

/-- Joined pieces come apart again behind a separator. -/
theorem splitAt_join {sep : Char} {ps : List (List Char)} (hne : ps ≠ []) (h : ∀ p ∈ ps, sep ∉ p) :
    splitAt sep (sep :: join [sep] ps) = [] :: ps := by
  have text : sep :: join [sep] ps = ps.flatMap (sep :: ·) := by
    clear h
    induction ps with
    | nil => exact absurd rfl hne
    | cons p ps ih =>
      cases ps with
      | nil => simp [join]
      | cons q qs =>
        rw [join, List.flatMap_cons, ← ih (List.cons_ne_nil _ _)]
        simp
  rw [text, splitAt_flatMap_cons h]

namespace Path

/-- What is left without the idle pieces at the end. -/
theorem dropIdle_concat (pieces : List (List Char)) (last : List Char) :
    dropIdle (pieces ++ [last]) = if isIdle last then dropIdle pieces else pieces ++ [last] := by
  unfold dropIdle
  rw [List.reverse_append, List.reverse_singleton, List.singleton_append, List.dropWhile_cons]
  split
  · rfl
  · rw [List.reverse_cons, List.reverse_reverse]

/-- The last piece that is not idle is the last step. -/
theorem exists_front_of_getLast? {pieces : List (List Char)} {name : List Char}
    (h : (dropIdle pieces).getLast? = some name) : ∃ front, dropIdle pieces = front ++ [name] ∧
      pieces.filter (fun s => !isIdle s) = front.filter (fun s => !isIdle s) ++ [name] ∧
      front ⊆ pieces := by
  induction pieces using List.reverseRec with
  | nil => cases h
  | append_singleton pieces last ih =>
    rw [dropIdle_concat] at h ⊢
    by_cases idle : isIdle last = true
    · rw [if_pos idle] at h ⊢
      obtain ⟨front, hfront, steps, inner⟩ := ih h
      refine ⟨front, hfront, ?_, List.subset_append_of_subset_left _ inner⟩
      rw [List.filter_append, steps, List.filter_cons_of_neg (by rw [idle]; decide), List.filter_nil,
        List.append_nil]
    · rw [if_neg idle] at h ⊢
      rw [List.getLast?_concat] at h
      obtain rfl := Option.some.inj h
      refine ⟨pieces, rfl, ?_, List.subset_append_left _ _⟩
      rw [List.filter_append, List.filter_cons_of_pos (by rw [Bool.not_eq_true] at idle; rw [idle]; rfl),
        List.filter_nil]

/-- The stem is a beginning of the name. -/
theorem isPrefix_cutExtension (name : List Char) : (cutExtension name).1 <+: name := by
  unfold cutExtension
  cases hcut : cutFirst '.' name.reverse with
  | none => exact List.prefix_refl name
  | some cut =>
    obtain ⟨e, s⟩ := cut
    dsimp only
    split
    · exact List.prefix_refl name
    · rw [← List.reverse_reverse name, eq_append_of_cutFirst hcut, List.reverse_append]
      exact ((List.suffix_cons '.' s).reverse).trans (List.prefix_append _ _)

variable {p : Path} {name : List Char}

/-- The name of an absolute path is its last step, and a new extension changes this step only. -/
theorem exists_steps_of_fileName? (absolute : p.isAbsolute = true) (h : p.fileName? = some name) :
    ∃ front, p.steps = front ++ [name] ∧ ∀ e : String, e.toList ≠ [] → '/' ∉ e.toList →
      (p.withExtension e).isAbsolute = true ∧
      (p.withExtension e).steps = front ++ [(cutExtension name).1 ++ '.' :: e.toList] := by
  obtain ⟨r, hr⟩ := isAbsolute_iff.mp absolute
  have parts : p.parts = ⟨['/'], splitAt '/' r⟩ := by
    unfold Path.parts
    rw [hr]
    rfl
  have last : (dropIdle (splitAt '/' r)).getLast? = some name := by
    unfold fileName? at h
    rw [parts] at h
    dsimp only at h
    split at h
    · rename_i found
      split at h
      · cases h
      · rw [found, Option.some.inj h]
    · cases h
  obtain ⟨front, hfront, steps, inner⟩ := exists_front_of_getLast? last
  have all : p.steps = front.filter (fun s => !isIdle s) ++ [name] := by
    unfold Path.steps
    rw [hr, splitAt_sep, List.filter_cons_of_neg (by decide), steps]
  refine ⟨_, all, fun e hne slash => ?_⟩
  have text : (p.withExtension e).text.toList =
      '/' :: Text.join ['/'] (front ++ [(cutExtension name).1 ++ '.' :: e.toList]) := by
    have full : e.isEmpty = false := by
      rw [← Bool.not_eq_true, String.isEmpty_iff]
      rintro rfl
      exact hne rfl
    unfold withExtension
    rw [h]
    dsimp only
    rw [full, if_neg Bool.false_ne_true, parts, hfront, List.dropLast_concat]
    exact String.toList_ofList
  have busy : isIdle ((cutExtension name).1 ++ '.' :: e.toList) = false := by
    obtain ⟨c, s, hs⟩ := List.exists_cons_of_ne_nil hne
    rw [hs, isIdle]
    cases (cutExtension name).1 <;> simp
  have pieces : ∀ s ∈ front ++ [(cutExtension name).1 ++ '.' :: e.toList], '/' ∉ s := by
    intro s hs
    rcases List.mem_append.mp hs with old | new
    · exact not_mem_of_mem_splitAt (inner old)
    · have named : '/' ∉ name := not_mem_of_mem_steps (p := p) (by rw [all]; simp)
      rw [List.mem_singleton.mp new, List.mem_append, List.mem_cons, not_or, not_or]
      exact ⟨fun h => named ((isPrefix_cutExtension name).subset h), by decide, slash⟩
  refine ⟨isAbsolute_iff.mpr ⟨_, text⟩, ?_⟩
  unfold Path.steps
  rw [text, splitAt_join (by simp) pieces, List.filter_cons_of_neg (by decide), List.filter_append,
    List.filter_cons_of_pos (by rw [busy]; rfl), List.filter_nil]

end Path

end SparqlConformance
