import Mathlib.Data.List.TakeWhile
import SparqlConformance.Plans.Plan
import SparqlConformance.Proofs.PlainPaths
/-!
# References to plain paths

The `file:` URL of a plain path is read as the path: no segment of it is a detour or a drive letter, and no
character of it is an escape. So a manifest that refers to a file by such a URL names that file.
-/
namespace SparqlConformance

open Text

theorem Utf8.encode_ascii {s : List Char} (ascii : ∀ c ∈ s, c.toNat < 0x80) :
    encode s = s.map fun c => UInt8.ofNat c.toNat := by
  induction s with
  | nil => rfl
  | cons c s ih =>
    have hc : String.utf8EncodeChar c = [UInt8.ofNat c.toNat] := by
      have small : c.val.toNat ≤ 0x7F := Nat.le_of_lt_succ (ascii c List.mem_cons_self)
      unfold String.utf8EncodeChar
      exact if_pos small
    rw [encode, List.flatMap_cons, hc, ← encode, ih fun d hd => ascii d (List.mem_cons_of_mem _ hd)]
    rfl

namespace Url

section Segments

variable {name : List Char} (file : IsFileName name)
include file

theorem foldDots_of_isFileName : foldDots name = name := by
  have same : ∀ {s : List Char}, '%' ∉ s → foldDots s = s := by
    intro s
    induction s with
    | nil => exact fun _ => rfl
    | cons c s ih =>
      intro h
      rw [List.mem_cons, not_or] at h
      unfold foldDots
      split
      · rename_i escape
        exact absurd (List.cons.inj escape).1.symm h.1
      · rename_i escape
        exact absurd (List.cons.inj escape).1.symm h.1
      · rename_i other
        obtain ⟨rfl, rfl⟩ := List.cons.inj other
        rw [ih h.2]
      · rename_i nothing
        cases nothing
  exact same (file.not_mem (by decide))

theorem isDriveLetter_of_isFileName : isDriveLetter name = false := by
  have colon : ':' ∉ name := file.not_mem (by decide)
  have bar : '|' ∉ name := file.not_mem (by decide)
  unfold isDriveLetter
  split
  · simp only [List.mem_cons, List.not_mem_nil, or_false, not_or] at colon bar
    simp [Ne.symm colon.2, Ne.symm bar.2]
  · rfl

/-- File names are no detours: they are added as they are. -/
theorem addSegment_of_isFileName (path : List Char) (more : Bool) :
    addSegment .file path name more = path ++ name ++ if more then ['/'] else [] := by
  have forward : isDoubleDot name = false := by
    rw [isDoubleDot, foldDots_of_isFileName file, beq_eq_false_iff_ne]
    exact file.forward
  have busy : isSingleDot name = false := by
    have idle := file.busy
    rw [Path.isIdle, Bool.or_eq_false_iff] at idle
    rw [isSingleDot, foldDots_of_isFileName file]
    exact idle.2
  unfold addSegment
  rw [forward, busy, isDriveLetter_of_isFileName file]
  simp

/-- A file name is read as one segment. -/
theorem readSegments_of_isFileName (path rest : List Char) :
    readSegments .file path [] (name ++ rest) = readSegments .file path name.reverse rest := by
  have run : ∀ (s segment : List Char), (∀ c ∈ s, isFileChar c = true) →
      readSegments .file path segment (s ++ rest) =
        readSegments .file path (s.reverse ++ segment) rest := by
    intro s
    induction s with
    | nil => exact fun _ _ => rfl
    | cons c s ih =>
      intro segment chars
      have inner : isSeparator .file c = false :=
        Bool.not_eq_true' _ ▸ of_isFileChar (fun c => !isSeparator .file c) (by decide)
          (chars c List.mem_cons_self)
      rw [List.cons_append, readSegments, inner, if_neg Bool.false_ne_true,
        ih _ fun d hd => chars d (List.mem_cons_of_mem _ hd), List.reverse_cons, List.append_assoc]
      rfl
  rw [run name [] file.chars, List.append_nil]

theorem percentEncode_of_isFileName : percentEncode inPathSet name = name :=
  percentEncode_eq_self fun c hc => kept_in_path (file.chars c hc)

end Segments

/-- File names are read one after the other. -/
theorem readSegments_flatMap {steps : List (List Char)} {s : List Char} (first : IsFileName s)
    (names : ∀ t ∈ steps, IsFileName t) (path : List Char) :
    readSegments .file path [] (s ++ steps.flatMap ('/' :: ·)) =
      path ++ s ++ steps.flatMap ('/' :: ·) := by
  induction steps generalizing s path with
  | nil =>
    rw [readSegments_of_isFileName first, List.flatMap_nil, readSegments, List.reverse_reverse,
      percentEncode_of_isFileName first, addSegment_of_isFileName first]
    rfl
  | cons t steps ih =>
    have next := ih (names t List.mem_cons_self) (fun u hu => names u (List.mem_cons_of_mem _ hu))
      (path ++ s ++ ['/'])
    rw [readSegments_of_isFileName first, List.flatMap_cons, List.cons_append, readSegments,
      if_pos (by decide), List.reverse_reverse, percentEncode_of_isFileName first,
      addSegment_of_isFileName first, if_pos rfl, next]
    simp

section Reading

variable {steps : List (List Char)} (names : ∀ s ∈ steps, IsFileName s)
include names

theorem normalisePath_pathOf : normalisePath .file [] (pathOf steps) = pathOf steps := by
  cases steps with
  | nil => decide
  | cons s steps =>
    have first := names s List.mem_cons_self
    have start : readSegments .file [] [] ('/' :: (s ++ steps.flatMap ('/' :: ·))) =
        readSegments .file ['/'] [] (s ++ steps.flatMap ('/' :: ·)) := rfl
    obtain ⟨c, r, rfl⟩ := List.exists_cons_of_ne_nil (l := s) (by
      rintro rfl
      exact absurd first.busy (by decide))
    have inner : c ≠ '/' := ne_of_isFileChar (first.chars c List.mem_cons_self) (by decide)
    have text : pathOf ((c :: r) :: steps) = '/' :: (c :: r ++ steps.flatMap ('/' :: ·)) := rfl
    rw [normalisePath, if_pos rfl, text, start,
      readSegments_flatMap first (fun t ht => names t (List.mem_cons_of_mem _ ht))]
    simp [inner]

theorem beforeQuery_pathOf : beforeQuery (pathOf steps) = pathOf steps := by
  refine List.takeWhile_eq_self_iff.mpr fun c hc => ?_
  rcases mem_pathOf names hc with rfl | file
  · decide
  · exact of_isFileChar (fun c => c != '?' && c != '#') (by decide) file

theorem cleaned_along : cleaned (along steps) = along steps := by
  have above : ∀ c ∈ along steps, decide (c.toNat ≤ 0x20) = false ∧ isIgnored c = false := by
    intro c hc
    have scheme : "file://".toList.all (fun c => !decide (c.toNat ≤ 0x20) && !isIgnored c) = true := by
      decide
    have kept : (!decide (c.toNat ≤ 0x20) && !isIgnored c) = true := by
      rcases List.mem_append.mp hc with start | hc
      · exact List.all_eq_true.mp scheme c start
      · rcases mem_pathOf names hc with rfl | file
        · decide
        · exact of_isFileChar (fun c => !decide (c.toNat ≤ 0x20) && !isIgnored c) (by decide) file
    simpa using kept
  have whole : ∀ s : List Char, (∀ c ∈ s, decide (c.toNat ≤ 0x20) = false) →
      s.dropWhile (fun c => decide (c.toNat ≤ 0x20)) = s := by
    intro s visible
    cases s with
    | nil => rfl
    | cons c s => rw [List.dropWhile_cons, visible c List.mem_cons_self, if_neg Bool.false_ne_true]
  unfold cleaned
  dsimp only
  rw [whole _ fun c hc => (above c hc).1, whole _ fun c hc => (above c (List.mem_reverse.mp hc)).1,
    List.reverse_reverse, List.filter_eq_self]
  intro c hc
  rw [(above c hc).2, Bool.not_false]

theorem read?_along : read? (along steps) = some ⟨['f', 'i', 'l', 'e'], none, pathOf steps⟩ := by
  obtain ⟨r, hr⟩ := exists_pathOf steps
  have start : "file://".toList = ['f', 'i', 'l', 'e', ':', '/', '/'] := by decide
  have scheme : Iri.afterScheme? (along steps) = some (['f', 'i', 'l', 'e'], '/' :: '/' :: pathOf steps) := by
    unfold along
    rw [start]
    rfl
  have kind : schemeKind (['f', 'i', 'l', 'e'].map Char.toLower) = .file := by decide
  have place : readFile ['f', 'i', 'l', 'e'] ('/' :: '/' :: pathOf steps) =
      some ⟨['f', 'i', 'l', 'e'], none, normalisePath .file [] (beforeQuery (pathOf steps))⟩ := by
    rw [hr]
    rfl
  unfold read?
  rw [cleaned_along names, scheme]
  dsimp only
  rw [kind]
  exact place.trans (by rw [beforeQuery_pathOf names, normalisePath_pathOf names])

theorem encode_pathOf : Utf8.encode (pathOf steps) = (pathOf steps).map fun c => UInt8.ofNat c.toNat := by
  refine Utf8.encode_ascii fun c hc => ?_
  rcases mem_pathOf names hc with rfl | file
  · decide
  · exact of_decide_eq_true (of_isFileChar (fun c => decide (c.toNat < 0x80)) (by decide) file)

theorem not_mem_encode_pathOf {b : UInt8} (slash : b ≠ 0x2F)
    (hb : ∀ n < 128, isFileChar (Char.ofNat n) = true → (UInt8.ofNat (Char.ofNat n).toNat != b) = true) :
    b ∉ Utf8.encode (pathOf steps) := by
  rw [encode_pathOf names, List.mem_map]
  rintro ⟨c, hc, rfl⟩
  rcases mem_pathOf names hc with rfl | file
  · exact slash (by decide)
  · have other := of_isFileChar (fun d => UInt8.ofNat d.toNat != UInt8.ofNat c.toNat) hb file
    simp at other

theorem exists_segments (scheme : List Char) : ∃ ps, segments? ⟨scheme, none, pathOf steps⟩ = some ps ∧
    ps.flatMap ('/' :: ·) = pathOf steps := by
  obtain ⟨r, hr⟩ := exists_pathOf steps
  refine ⟨splitAt '/' r, ?_, ?_⟩
  · unfold segments?
    dsimp only
    rw [hr]
    rfl
  · cases steps with
    | nil =>
      obtain rfl : [] = r := (List.cons.inj hr).2
      rfl
    | cons s steps =>
      have slash : ∀ t ∈ s :: steps, '/' ∉ t := fun t ht => (names t ht).not_mem (by decide)
      have cut := splitAt_flatMap_cons slash
      have text : (s :: steps).flatMap ('/' :: ·) = '/' :: r := hr
      rw [text, splitAt_sep] at cut
      rw [(List.cons.inj cut).2]
      rfl

/-- No character of the path is an escape. -/
theorem flatMap_percentDecode {ps : List (List Char)} (joined : ps.flatMap ('/' :: ·) = pathOf steps) :
    (ps.flatMap fun s => (0x2F : UInt8) :: percentDecode s) = Utf8.encode (pathOf steps) := by
  have decoded : ∀ s ∈ ps, (0x2F : UInt8) :: percentDecode s = Utf8.encode ('/' :: s) := by
    intro s hs
    have plain : '%' ∉ s := by
      intro escape
      have mem : '%' ∈ pathOf steps := by
        rw [← joined]
        exact List.mem_flatMap.mpr ⟨s, hs, List.mem_cons_of_mem _ escape⟩
      exact not_mem_pathOf names (by decide) (by decide) mem
    rw [percentDecode_of_not_mem plain]
    rfl
  rw [List.flatMap_congr decoded, ← joined, Utf8.encode, List.flatMap_assoc]
  rfl

/-- The URL of some steps is the URL of the path that takes them. -/
theorem filePath?_pathOf (scheme : List Char) :
    filePath? ⟨scheme, none, pathOf steps⟩ = some ⟨String.ofList (pathOf steps)⟩ := by
  obtain ⟨ps, segments, joined⟩ := exists_segments names scheme
  have colon : (0x3A : UInt8) ∉ Utf8.encode (pathOf steps) :=
    not_mem_encode_pathOf names (by decide) (by decide)
  have bar : (0x7C : UInt8) ∉ Utf8.encode (pathOf steps) :=
    not_mem_encode_pathOf names (by decide) (by decide)
  unfold filePath?
  rw [segments]
  dsimp only
  rw [flatMap_percentDecode names joined]
  split
  · rename_i d c _ _ last
    have hd : d ∈ Utf8.encode (pathOf steps) := by
      rw [← List.mem_reverse, last]
      exact List.mem_cons_self
    have here : (d == 0x3A || d == 0x7C) = false := by
      rw [Bool.or_eq_false_iff, beq_eq_false_iff_ne, beq_eq_false_iff_ne]
      exact ⟨fun h => colon (h ▸ hd), fun h => bar (h ▸ hd)⟩
    simp only [here, Bool.false_and, if_neg Bool.false_ne_true, Utf8.decodeLossy_encode]
  · rw [if_neg Bool.false_ne_true, Utf8.decodeLossy_encode]

end Reading

end Url

theorem Path.steps_pathOf {steps : List (List Char)} (names : ∀ s ∈ steps, IsFileName s) :
    (⟨String.ofList (Url.pathOf steps)⟩ : Path).steps = steps := by
  cases steps with
  | nil => decide
  | cons s steps =>
    refine steps_of_text (fun t ht => (names t ht).not_mem (by decide)) (fun t ht => (names t ht).busy) ?_
    rw [String.toList_ofList]
    rfl

/-- An IRI by which every manifest names a file. -/
structure Manifest.Refers (iri : String) (p : Path) : Prop where
  absolute : isIri iri = true
  named : ∀ manifest, ∃ q, resolve? manifest (.iri iri) = some q ∧ q.same p = true

/-- Plans refer to files with plain paths. -/
theorem Plan.exists_fileIri {p : Path} (absolute : p.isAbsolute = true) (plain : p.IsPlain) :
    ∃ iri, fileIri? p = some iri ∧ Manifest.Refers iri p := by
  have hiri : isIri (String.ofList (Url.along p.steps)) = true := by
    rw [isIri, String.toList_ofList]
    exact Url.isAbsolute_along plain
  refine ⟨_, ?_, hiri, fun manifest => ⟨⟨String.ofList (Url.pathOf p.steps)⟩, ?_, ?_⟩⟩
  · rw [fileIri?, Url.ofFilePath?_of_isPlain absolute plain, Option.filter_some, if_pos hiri]
  · unfold Manifest.resolve?
    dsimp only
    rw [String.toList_ofList, Url.read?_along plain]
    have kind : Url.schemeKind ['f', 'i', 'l', 'e'] = .file := by decide
    exact (if_pos kind).trans (Url.filePath?_pathOf plain _)
  · obtain ⟨r, hr⟩ := Url.exists_pathOf p.steps
    have start : (⟨String.ofList (Url.pathOf p.steps)⟩ : Path).isAbsolute = true := by
      rw [Path.isAbsolute_iff, String.toList_ofList]
      exact ⟨r, hr⟩
    exact (Path.same_iff_steps start absolute).mpr (Path.steps_pathOf plain)

end SparqlConformance
