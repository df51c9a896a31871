import SparqlConformance.Proofs.AsciiCharacters
import SparqlConformance.Proofs.WrittenTerms
/-!
# Reading labels

Labels that are read to their end in front of anything that ends labels, and what a label that was read
looks like.
-/
namespace SparqlConformance

open Text

/-- Labels that are read to their end: the reader takes no colon, and no dot before another one. -/
structure IsWholeLabel (label : String) : Prop where
  valid : isBlankLabel label.toList = true
  colon : ':' ∉ label.toList
  dots : ¬ ['.', '.'] <:+: label.toList

/-- Labels of ASCII letters and digits. -/
structure IsPlainLabel (label : String) : Prop where
  nonempty : label.toList ≠ []
  chars : ∀ c ∈ label.toList, c.isAlphanum = true

/-- Numbers behind a plain mark are plain. -/
theorem isPlainLabel_marked {mark : List Char} (marked : mark ≠ [])
    (plain : mark.all Char.isAlphanum = true) (n : Nat) :
    IsPlainLabel (String.ofList (mark ++ Nat.toDigits 10 n)) := by
  refine ⟨?_, fun c hc => ?_⟩
  · rw [String.toList_ofList]
    exact List.append_ne_nil_of_left_ne_nil marked _
  · rw [String.toList_ofList] at hc
    rcases List.mem_append.mp hc with front | back
    · exact List.all_eq_true.mp plain c front
    · rw [Char.isAlphanum, Nat.isDigit_of_mem_toDigits (by omega) (by omega) back, Bool.or_true]

theorem isPlainLabel_append_number {mark : String} (marked : mark.toList ≠ [])
    (plain : mark.toList.all Char.isAlphanum = true) (n : Nat) : IsPlainLabel (mark ++ toString n) := by
  have text : mark ++ toString n = String.ofList (mark.toList ++ Nat.toDigits 10 n) := by
    rw [Nat.toString_eq_ofList_toDigits, String.ofList_append, String.ofList_toList]
  rw [text]
  exact isPlainLabel_marked marked plain n

theorem isLabelChar_of_mem {label : List Char} (valid : isBlankLabel label = true) :
    ∀ c ∈ label, isLabelStart c = true ∨ isLabelChar c = true := by
  cases label with
  | nil => exact fun _ h => absurd h List.not_mem_nil
  | cons first label =>
    simp only [isBlankLabel, Bool.and_eq_true] at valid
    obtain ⟨⟨start, all⟩, _⟩ := valid
    intro c hc
    rcases List.mem_cons.mp hc with rfl | hc
    · exact Or.inl start
    · exact Or.inr (List.all_eq_true.mp all c hc)

/-- Plain labels are read to their end. -/
theorem IsPlainLabel.isWhole {label : String} (plain : IsPlainLabel label) : IsWholeLabel label := by
  obtain ⟨nonempty, chars⟩ := plain
  have absent : ∀ d, d.isAlphanum = false → d ∉ label.toList := by
    intro d hd h
    rw [chars d h] at hd
    cases hd
  have dot : '.' ∉ label.toList := absent '.' rfl
  refine ⟨?_, absent ':' rfl, fun dots => dot (dots.subset (List.mem_cons_self ..))⟩
  obtain ⟨c, s, hlabel⟩ := List.exists_cons_of_ne_nil nonempty
  rw [hlabel] at chars dot ⊢
  have start : isLabelStart c = true := by
    have named := startsLabel_of_isAlphanum (chars c (List.mem_cons_self ..))
    rw [isLabelStart]
    grind
  have names : s.all isLabelChar = true := by
    refine List.all_eq_true.mpr fun d hd => ?_
    rw [isLabelChar, isNameChar_of_isAlphanum (chars d (List.mem_cons_of_mem _ hd))]
    rfl
  have last : (c :: s).getLast? ≠ some '.' := fun h => dot (List.mem_of_getLast? h)
  simp [isBlankLabel, start, names, last]

namespace NTriples

theorem labelRun_cons {c : Char} (hc : isNameChar c = true) (s : List Char) :
    labelRun (c :: s) = (labelRun s).map fun (l, rest) => (c :: l, rest) := by
  have hdot : c ≠ '.' := by
    rintro rfl
    cases hc
  rw [labelRun.eq_3 c s fun _ _ heq _ => hdot heq, if_pos hc]

theorem labelRun_dot {c : Char} (hc : isNameChar c = true) (s : List Char) :
    labelRun ('.' :: c :: s) = (labelRun (c :: s)).map fun (l, rest) => ('.' :: l, rest) := by
  rw [labelRun.eq_2, if_pos hc]

theorem labelRun_stop {c : Char} (hc : isNameChar c = false) (hdot : c ≠ '.') (s : List Char) :
    labelRun (c :: s) = some ([], c :: s) := by
  rw [labelRun.eq_3 c s fun _ _ heq _ => hdot heq, hc]
  simp [hdot]

/-- Single dots between characters of names are taken together with them. -/
theorem labelRun_append {s rest : List Char} (chars : ∀ c ∈ s, isNameChar c = true ∨ c = '.')
    (dots : ¬ ['.', '.'] <:+: s) (last : s.getLast? ≠ some '.')
    (stops : labelRun rest = some ([], rest)) : labelRun (s ++ rest) = some (s, rest) := by
  induction s with
  | nil => exact stops
  | cons c s ih =>
    have dots_tail : ¬ ['.', '.'] <:+: s := fun h => dots (h.trans (List.infix_cons (List.infix_refl _)))
    cases s with
    | nil =>
      rcases chars c (List.mem_cons_self ..) with hc | rfl
      · rw [List.cons_append, labelRun_cons hc, List.nil_append, stops]
        rfl
      · exact absurd rfl last
    | cons d s =>
      have htail := ih (fun e he => chars e (List.mem_cons_of_mem _ he)) dots_tail
        (by rwa [List.getLast?_cons_cons] at last)
      rcases chars c (List.mem_cons_self ..) with hc | rfl
      · rw [List.cons_append, labelRun_cons hc, htail]
        rfl
      · have hd : isNameChar d = true := by
          rcases chars d (List.mem_cons_of_mem _ (List.mem_cons_self ..)) with hd | rfl
          · exact hd
          · exact absurd ⟨[], s, rfl⟩ dots
        rw [List.cons_append] at htail
        rw [List.cons_append, List.cons_append, labelRun_dot hd, htail]
        rfl

/-- A label is read as a whole in front of anything that ends labels. -/
theorem readBlank_whole {label : String} (whole : IsWholeLabel label) {rest : List Char}
    (stops : labelRun rest = some ([], rest)) :
    readBlank ('_' :: ':' :: (label.toList ++ rest)) = some (label, rest) := by
  obtain ⟨valid, colon, dots⟩ := whole
  have htext := String.ofList_toList (s := label)
  cases hlabel : label.toList with
  | nil =>
    rw [hlabel] at valid
    cases valid
  | cons c s =>
    rw [hlabel] at valid colon dots htext
    simp only [isBlankLabel, Bool.and_eq_true] at valid
    obtain ⟨⟨hstart, hchars⟩, hlast⟩ := valid
    have hc : c ≠ ':' := fun heq => colon (heq ▸ List.mem_cons_self ..)
    have start : (isNameBase c || c == '_' || c.isDigit) = true := by
      simpa [isLabelStart, hc] using hstart
    have chars : ∀ d ∈ s, isNameChar d = true ∨ d = '.' := by
      intro d hd
      have hcolon : d ≠ ':' := fun heq => colon (heq ▸ List.mem_cons_of_mem _ hd)
      simpa [isLabelChar, hcolon] using List.all_eq_true.mp hchars d hd
    have last : s.getLast? ≠ some '.' := by
      intro heq
      rw [List.getLast?_cons, heq] at hlast
      cases hlast
    have run := labelRun_append chars (fun h => dots (h.trans (List.infix_cons (List.infix_refl _))))
      last stops
    rw [List.cons_append, readBlank, if_pos start, run]
    exact congrArg (fun l => some (l, rest)) htext

end NTriples

end SparqlConformance
