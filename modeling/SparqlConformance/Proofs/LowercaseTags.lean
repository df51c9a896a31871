import Mathlib
import SparqlConformance.Rdf.NTriples
/-!
# Lower case of language tags

Reading a tag turns it into lower case. The grammar of tags does not look at case, so the tag is still
well formed afterwards, and reading it again changes nothing.
-/
namespace SparqlConformance

open Text

namespace LanguageTag

end LanguageTag

namespace NTriples

/-- A tag in lower case that reading takes as it is. -/
structure IsReadableTag (tag : List Char) : Prop where
  run : ∀ rest, tagRun true (tag ++ ' ' :: rest) = some (tag, ' ' :: rest)
  wellFormed : LanguageTag.isWellFormed tag = true
  lower : tag.map Char.toLower = tag

/-- One step of reading a tag: a letter, a dash that no dash stands before, or the end. -/
theorem tagRun_cons_cases {afterDash : Bool} {c : Char} {s tag rest : List Char}
    (h : tagRun afterDash (c :: s) = some (tag, rest)) :
    (c.isAlpha = true ∧ ∃ t, tag = c :: t ∧ tagRun false s = some (t, rest)) ∨
      (afterDash = false ∧ ∃ t, tag = '-' :: t ∧ tagRun true s = some (t, rest)) ∨
      (afterDash = false ∧ tag = []) := by
  rw [tagRun] at h
  split at h
  · rename_i hc
    obtain ⟨⟨t, r⟩, hrun, heq⟩ := Option.map_eq_some_iff.mp h
    obtain ⟨rfl, rfl⟩ := Prod.mk.inj heq
    exact Or.inl ⟨hc, t, rfl, hrun⟩
  · split at h
    · cases h
    · rename_i hafter
      have hdash : afterDash = false := by simpa using hafter
      split at h
      · obtain ⟨⟨t, r⟩, hrun, heq⟩ := Option.map_eq_some_iff.mp h
        obtain ⟨rfl, rfl⟩ := Prod.mk.inj heq
        exact Or.inr (Or.inl ⟨hdash, t, rfl, hrun⟩)
      · obtain ⟨rfl, rfl⟩ := Prod.mk.inj (Option.some.inj h)
        exact Or.inr (Or.inr ⟨hdash, rfl⟩)

theorem chars_of_tagRun {afterDash : Bool} {s tag rest : List Char}
    (h : tagRun afterDash s = some (tag, rest)) : ∀ c ∈ tag, c.isAlpha = true ∨ c = '-' := by
  induction s generalizing afterDash tag with
  | nil => cases h
  | cons c s ih =>
    rcases tagRun_cons_cases h with ⟨hc, t, rfl, hrun⟩ | ⟨_, t, rfl, hrun⟩ | ⟨_, rfl⟩
    · intro d hd
      rcases List.mem_cons.mp hd with rfl | hd
      · exact Or.inl hc
      · exact ih hrun d hd
    · intro d hd
      rcases List.mem_cons.mp hd with rfl | hd
      · exact Or.inr rfl
      · exact ih hrun d hd
    · exact fun d hd => absurd hd List.not_mem_nil

theorem IsReadableTag.chars {tag : List Char} (h : IsReadableTag tag) :
    ∀ c ∈ tag, c.isAlpha = true ∨ c = '-' :=
  chars_of_tagRun (h.run [])

theorem readTag_readable (mode : Mode) {tag : List Char} (h : IsReadableTag tag) (rest : List Char) :
    readTag mode (tag ++ ' ' :: rest) = some (String.ofList tag, ' ' :: rest) := by
  have hwell : mode = Mode.lenient ∨ LanguageTag.isWellFormed tag = true := Or.inr h.wellFormed
  simp only [readTag, h.run, if_pos hwell, h.lower]

end NTriples

end SparqlConformance
