import SparqlConformance.Manifest.Reference
import SparqlConformance.Proofs.AsciiCharacters
import SparqlConformance.Proofs.EncodedText
import SparqlConformance.Proofs.IriFragments
import SparqlConformance.Proofs.JoinedPaths
/-!
# Plain paths

Paths whose steps are made of ASCII letters, digits, dashes, low lines and dots. Such a path stands in its
`file:` URL as it is, the URL is an IRI, and reading it as a reference gives the path back.
-/
namespace SparqlConformance

open Text

def isFileChar (c : Char) : Bool := c.isAlphanum || c == '-' || c == '_' || c == '.'

/-- Names that lead to what they name, and to nothing else. -/
structure IsFileName (name : List Char) : Prop where
  chars : ∀ c ∈ name, isFileChar c = true
  busy : Path.isIdle name = false
  forward : name ≠ ['.', '.']

instance (name : List Char) : Decidable (IsFileName name) :=
  decidable_of_iff (name.all isFileChar = true ∧ Path.isIdle name = false ∧ name ≠ ['.', '.'])
    ⟨fun h => ⟨List.all_eq_true.mp h.1, h.2.1, h.2.2⟩,
      fun h => ⟨List.all_eq_true.mpr h.chars, h.busy, h.forward⟩⟩

def Path.IsPlain (p : Path) : Prop := ∀ s ∈ p.steps, IsFileName s

instance (p : Path) : Decidable p.IsPlain := inferInstanceAs (Decidable (∀ s ∈ p.steps, IsFileName s))

section Characters

variable {c : Char}

/-- A class that holds all characters of files among the first characters holds all of them. -/
theorem of_isFileChar (p : Char → Bool)
    (ascii : ∀ n < 128, isFileChar (Char.ofNat n) = true → p (Char.ofNat n) = true)
    (h : isFileChar c = true) : p c = true := by
  have small : c.toNat < 128 := by
    simp only [isFileChar, Char.isAlphanum, Bool.or_eq_true, beq_iff_eq, isAlpha_iff, isDigit_iff] at h
    rcases h with (((_ | _) | rfl) | rfl) | rfl
    · omega
    · omega
    all_goals decide
  have hc := ascii c.toNat small
  rw [Char.ofNat_toNat] at hc
  exact hc h

theorem isPathChar_of_isFileChar (h : isFileChar c = true) : Iri.isPathChar c = true :=
  of_isFileChar Iri.isPathChar (by decide) h

theorem isFragmentChar_of_isFileChar (h : isFileChar c = true) : Iri.isFragmentChar c = true :=
  of_isFileChar Iri.isFragmentChar (by decide) h

/-- Characters of files are kept where segments are made from names. -/
theorem kept_in_segment (h : isFileChar c = true) :
    (decide (c.toNat < 0x80) && !Url.inSegmentSet c) = true :=
  of_isFileChar (fun c => decide (c.toNat < 0x80) && !Url.inSegmentSet c) (by decide) h

/-- Characters of files are kept where paths are normalised. -/
theorem kept_in_path (h : isFileChar c = true) :
    (decide (c.toNat < 0x80) && !Url.inPathSet c) = true :=
  of_isFileChar (fun c => decide (c.toNat < 0x80) && !Url.inPathSet c) (by decide) h

theorem ne_of_isFileChar (h : isFileChar c = true) {d : Char} (hd : isFileChar d = false) : c ≠ d := by
  rintro rfl
  rw [h] at hd
  cases hd

end Characters

theorem IsFileName.not_mem {name : List Char} (h : IsFileName name) {c : Char}
    (hc : isFileChar c = false) : c ∉ name := fun mem =>
  ne_of_isFileChar (h.chars c mem) hc rfl

namespace Url

theorem percentEncode_eq_self {reserved : Char → Bool} {s : List Char}
    (h : ∀ c ∈ s, (decide (c.toNat < 0x80) && !reserved c) = true) : percentEncode reserved s = s := by
  induction s with
  | nil => rfl
  | cons c s ih =>
    rw [percentEncode, List.flatMap_cons, if_pos (h c List.mem_cons_self), ← percentEncode,
      ih fun d hd => h d (List.mem_cons_of_mem _ hd)]
    rfl

theorem percentDecode_of_not_mem {s : List Char} (h : '%' ∉ s) : percentDecode s = Utf8.encode s := by
  induction s with
  | nil => rfl
  | cons c s ih =>
    rw [List.mem_cons, not_or] at h
    rw [percentDecode_plain (Ne.symm h.1), ih h.2]
    rfl

/-- The path of a URL that leads along some steps. -/
def pathOf (steps : List (List Char)) : List Char :=
  if steps.isEmpty then ['/'] else steps.flatMap ('/' :: ·)

/-- The URL that leads along some steps. -/
def along (steps : List (List Char)) : List Char := "file://".toList ++ pathOf steps

variable {p : Path}

theorem ofFilePath?_of_isPlain (absolute : p.isAbsolute = true) (plain : p.IsPlain) :
    ofFilePath? p = some (String.ofList (along p.steps)) := by
  have kept : ∀ steps : List (List Char), (∀ s ∈ steps, IsFileName s) →
      (steps.flatMap fun s => '/' :: percentEncode inSegmentSet s) = steps.flatMap ('/' :: ·) := by
    intro steps names
    refine List.flatMap_congr fun s hs => ?_
    rw [percentEncode_eq_self fun c hc => kept_in_segment ((names s hs).chars c hc)]
  have empty : ∀ steps : List (List Char), (steps.flatMap ('/' :: ·)).isEmpty = steps.isEmpty := by
    intro steps
    cases steps <;> rfl
  unfold ofFilePath?
  rw [if_pos absolute, Path.names_of_isAbsolute absolute, kept _ plain]
  dsimp only
  rw [empty]
  rfl

theorem exists_pathOf (steps : List (List Char)) : ∃ r, pathOf steps = '/' :: r := by
  cases steps with
  | nil => exact ⟨[], rfl⟩
  | cons s steps => exact ⟨s ++ steps.flatMap ('/' :: ·), rfl⟩

theorem mem_pathOf {steps : List (List Char)} (names : ∀ s ∈ steps, IsFileName s) {c : Char}
    (h : c ∈ pathOf steps) : c = '/' ∨ isFileChar c = true := by
  unfold pathOf at h
  split at h
  · exact .inl (List.mem_singleton.mp h)
  · obtain ⟨s, hs, hc⟩ := List.mem_flatMap.mp h
    exact (List.mem_cons.mp hc).imp_right ((names s hs).chars c)

/-- After the scheme and no host only the path and what follows it matter. -/
theorem isAbsolute_file (r : List Char) :
    Iri.isAbsolute ("file://".toList ++ '/' :: r) = Iri.isTail ('/' :: r) := by
  have start : "file://".toList = ['f', 'i', 'l', 'e', ':', '/', '/'] := by decide
  rw [start]
  rfl

section Steps

variable {steps : List (List Char)} (names : ∀ s ∈ steps, IsFileName s)
include names

theorem escapedAll_pathOf : Iri.escapedAll Iri.isPathChar (pathOf steps) = true := by
  refine Iri.escapedAll_of_all fun c hc => ?_
  rcases mem_pathOf names hc with rfl | file
  · decide
  · exact ⟨isPathChar_of_isFileChar file, ne_of_isFileChar file (by decide)⟩

theorem not_mem_pathOf {c : Char} (slash : c ≠ '/') (hc : isFileChar c = false) : c ∉ pathOf steps := by
  intro h
  rcases mem_pathOf names h with rfl | file
  · exact slash rfl
  · exact ne_of_isFileChar file hc rfl

theorem cutFirst_pathOf {c : Char} (slash : c ≠ '/') (hc : isFileChar c = false) :
    cutFirst c (pathOf steps) = none :=
  Iri.cutFirst_eq_none (not_mem_pathOf names slash hc)

theorem isTail_pathOf : Iri.isTail (pathOf steps) = true := by
  unfold Iri.isTail
  rw [cutFirst_pathOf names (by decide) (by decide), Option.getD_none]
  dsimp only
  rw [cutFirst_pathOf names (by decide) (by decide), Option.getD_none]
  dsimp only
  rw [escapedAll_pathOf names]
  rfl

theorem isAbsolute_along : Iri.isAbsolute (along steps) = true := by
  obtain ⟨r, hr⟩ := exists_pathOf steps
  have tail := isTail_pathOf names
  unfold along
  rw [hr] at tail ⊢
  exact (isAbsolute_file r).trans tail

/-- Plain fragments keep a URL an IRI. -/
theorem isAbsolute_along_fragment {fragment : List Char}
    (plain : ∀ c ∈ fragment, isFileChar c = true) :
    Iri.isAbsolute (along steps ++ '#' :: fragment) = true := by
  have start : '#' ∉ along steps := by
    have scheme : '#' ∉ "file://".toList := by decide
    intro h
    rcases List.mem_append.mp h with front | back
    · exact scheme front
    · exact not_mem_pathOf names (by decide) (by decide) back
  refine Iri.isAbsolute_append_fragment start (Iri.escapedAll_of_all fun c hc => ?_) (isAbsolute_along names)
  exact ⟨isFragmentChar_of_isFileChar (plain c hc), ne_of_isFileChar (plain c hc) (by decide)⟩

end Steps

end Url

end SparqlConformance
