import Mathlib.Data.List.TakeWhile
import SparqlConformance.Manifest.Reference
import SparqlConformance.Proofs.JoinedPaths
import SparqlConformance.Proofs.WrittenTerms
/-!
# Remote names

An IRI that is not a `file:` IRI names a file beside the manifest by the last segment of its path. While a path
is read its last segment is kept from being a detour, however the dots of it are written and whatever separates
the segments, so the name leads into the directory of the manifest and stays there.
-/
namespace SparqlConformance

open Text

/-- Names of something in a directory, which lead neither up nor further down. -/
structure IsOrdinary (name : List Char) : Prop where
  filled : name ≠ []
  leaves : name ≠ ['.']
  forward : name ≠ ['.', '.']
  single : '/' ∉ name

theorem IsOrdinary.busy {name : List Char} (h : IsOrdinary name) : Path.isIdle name = false := by
  rw [Path.isIdle, Bool.or_eq_false_iff, List.isEmpty_eq_false_iff, beq_eq_false_iff_ne]
  exact ⟨h.filled, h.leaves⟩

namespace Path

variable {p place : Path} {name : List Char}

/-- The steps of a path are its components, but for a dot at its start. -/
theorem names_eq_steps (p : Path) :
    p.names = (if (splitAt '/' p.text.toList).head? = some ['.'] then [['.']] else []) ++ p.steps := by
  unfold names parts steps
  split
  · rename_i r absolute
    rw [absolute, splitAt_sep, List.head?_cons, if_neg (by decide)]
    rfl
  · rename_i dot
    rw [dot]
    rfl
  · rename_i r dotted
    obtain ⟨first, rest, hr, hdot⟩ := splitAt_cons (by decide : '.' ≠ '/') ('/' :: r)
    rw [splitAt_sep] at hr
    obtain ⟨rfl, rfl⟩ := List.cons.inj hr
    rw [dotted, hdot, splitAt_sep, List.head?_cons, if_pos rfl]
    rfl
  · rename_i absolute dot dotted
    have plain : (splitAt '/' p.text.toList).head? ≠ some ['.'] := by
      cases text : p.text.toList with
      | nil => decide
      | cons c s =>
        have relative : c ≠ '/' := fun slash => absolute s (slash ▸ text)
        obtain ⟨first, rest, hs, hcs⟩ := splitAt_cons relative s
        rw [hcs, List.head?_cons, Ne, Option.some_inj, List.cons.injEq, not_and]
        rintro rfl rfl
        cases s with
        | nil => exact dot text
        | cons d s =>
          have further : d ≠ '/' := fun slash => dotted s (slash ▸ text)
          obtain ⟨piece, pieces, -, hds⟩ := splitAt_cons further s
          rw [hds] at hs
          cases hs
    rw [if_neg plain]
    rfl

theorem text_ofName (name : List Char) : (Path.mk (String.ofList name)).text.toList = name :=
  String.toList_ofList

theorem isAbsolute_ofName (h : '/' ∉ name) : (Path.mk (String.ofList name)).isAbsolute = false := by
  rw [Bool.eq_false_iff, Ne, isAbsolute_iff, text_ofName]
  rintro ⟨s, rfl⟩
  exact h List.mem_cons_self

/-- An ordinary name adds itself to the components of a place. -/
theorem names_join (place : Path) (h : IsOrdinary name) :
    (place.join ⟨String.ofList name⟩).names = place.names ++ [name] := by
  have kept : [name].filter (fun s => !isIdle s) = [name] := by
    rw [List.filter_cons_of_pos (by rw [h.busy]; rfl), List.filter_nil]
  rw [names_eq_steps, names_eq_steps place, steps, steps, List.append_assoc]
  rcases text_join_cases place (isAbsolute_ofName h.single) with
    ⟨empty, text⟩ | ⟨front, hfront, text⟩ | ⟨-, text⟩
  · rw [text, empty, text_ofName, splitAt_of_not_mem h.single, kept, List.head?_cons,
      if_neg (by simpa using h.leaves)]
    rfl
  · rw [text, hfront, text_ofName, splitAt_append, splitAt_append, splitAt_of_not_mem h.single,
      List.filter_append, List.filter_append, kept,
      List.head?_append_of_ne_nil _ (splitAt_ne_nil _ _), List.head?_append_of_ne_nil _ (splitAt_ne_nil _ _),
      splitAt, List.filter_cons_of_neg (by decide), List.filter_nil, List.append_nil]
  · rw [text, text_ofName, splitAt_append, splitAt_of_not_mem h.single, List.filter_append, kept,
      List.head?_append_of_ne_nil _ (splitAt_ne_nil _ _)]

/-- A name without a slash leaves a path relative, or absolute. -/
theorem isAbsolute_join_ofName (place : Path) (h : '/' ∉ name) :
    (place.join ⟨String.ofList name⟩).isAbsolute = place.isAbsolute := by
  cases hplace : place.isAbsolute with
  | true => exact isAbsolute_join hplace
  | false =>
    rw [Bool.eq_false_iff, Ne, isAbsolute_iff] at hplace ⊢
    rintro ⟨s, hs⟩
    rcases text_join_cases place (isAbsolute_ofName h) with
      ⟨-, text⟩ | ⟨front, hfront, text⟩ | ⟨filled, text⟩
    · rw [hs, text_ofName] at text
      exact h (text ▸ List.mem_cons_self)
    · rw [hs] at text
      cases front with
      | nil => exact hplace ⟨[], hfront⟩
      | cons c front =>
        obtain ⟨rfl, -⟩ := List.cons.inj text
        exact hplace ⟨_, hfront⟩
    · rw [hs] at text
      obtain ⟨c, rest, hc⟩ := List.exists_cons_of_ne_nil filled
      rw [hc] at text
      obtain ⟨rfl, -⟩ := List.cons.inj text
      exact hplace ⟨_, hc⟩

end Path

namespace Url

/-- A path whose last segment, which may be empty, is no detour. -/
def EndsPlain (path : List Char) : Prop :=
  ∃ front name, path = front ++ '/' :: name ∧ '/' ∉ name ∧ name ≠ ['.'] ∧ name ≠ ['.', '.']

theorem endsPlain_slash (front : List Char) : EndsPlain (front ++ ['/']) :=
  ⟨front, [], rfl, List.not_mem_nil, nofun, nofun⟩

section Encoding

variable {reserved : Char → Bool} {s : List Char}

theorem slash_not_mem_percentByte (b : UInt8) : '/' ∉ percentByte b := by
  have digits : ∀ d, d < 16 → upperHexDigit d ≠ '/' := by decide
  rw [percentByte, hexByte, List.mem_cons, List.mem_cons, List.mem_singleton]
  rintro (percent | high | low)
  · exact absurd percent (by decide)
  · exact digits _ (Nat.mod_lt _ (by omega)) high.symm
  · exact digits _ (Nat.mod_lt _ (by omega)) low.symm

/-- Encoding writes no slash. -/
theorem slash_not_mem_percentEncode (h : '/' ∉ s) : '/' ∉ percentEncode reserved s := by
  intro mem
  obtain ⟨c, hc, mem⟩ := List.mem_flatMap.mp mem
  split at mem
  · rw [List.mem_singleton] at mem
    exact h (mem ▸ hc)
  · obtain ⟨b, -, mem⟩ := List.mem_flatMap.mp mem
    exact slash_not_mem_percentByte b mem

/-- A slash at the start was there before a text was encoded. -/
theorem head?_of_percentEncode (h : (percentEncode reserved s).head? = some '/') : s.head? = some '/' := by
  cases s with
  | nil => cases h
  | cons c s =>
    have filled : percentEncode reserved [c] ≠ [] := by
      rw [percentEncode, List.flatMap_singleton]
      split
      · exact List.cons_ne_nil _ _
      · rw [Ne, List.flatMap_eq_nil_iff, not_forall]
        obtain ⟨b, bytes, hbytes⟩ := List.exists_cons_of_ne_nil (String.utf8EncodeChar_ne_nil (c := c))
        exact ⟨b, by simp [hbytes, percentByte]⟩
    obtain ⟨d, r, hd⟩ := List.exists_cons_of_ne_nil filled
    have first : percentEncode reserved (c :: s) = d :: (r ++ percentEncode reserved s) := by
      rw [← List.cons_append, ← hd, percentEncode, percentEncode, percentEncode, ← List.flatMap_append]
      rfl
    rw [first, List.head?_cons] at h
    obtain rfl := Option.some.inj h
    by_contra other
    have encoded : '/' ∈ percentEncode reserved [c] := hd ▸ List.mem_cons_self
    refine slash_not_mem_percentEncode ?_ encoded
    exact fun mem => other (congrArg some (List.mem_singleton.mp mem).symm)

end Encoding

section Segments

variable {kind : SchemeKind} {path segment : List Char}

/-- Up to a slash means up to and with a slash. -/
theorem exists_upToSlash (h : '/' ∈ path) : ∃ front, upToSlash path = front ++ ['/'] := by
  have rest : path.reverse.dropWhile (· != '/') ≠ [] := by
    intro none
    have all := List.dropWhile_eq_nil_iff.mp none '/' (List.mem_reverse.mpr h)
    cases all
  obtain ⟨c, r, hr⟩ := List.exists_cons_of_ne_nil rest
  have slash := List.head_dropWhile_not (· != '/') rest
  simp only [hr, List.head_cons, bne_eq_false_iff_eq] at slash
  refine ⟨r.reverse, ?_⟩
  rw [upToSlash, hr, slash, List.reverse_cons]

theorem exists_withSlash (path : List Char) : ∃ front, withSlash path = front ++ ['/'] := by
  unfold withSlash
  split
  · rename_i ends
    exact (List.getLast?_eq_some_iff.mp (beq_iff_eq.mp ends)).imp fun _ h => h
  · exact ⟨path, rfl⟩

/-- A segment with something behind it leaves a slash at the end. -/
theorem exists_addSegment_more (kind : SchemeKind) (path segment : List Char) :
    ∃ front, addSegment kind path segment true = front ++ ['/'] := by
  unfold addSegment
  split
  · exact exists_withSlash _
  · split
    · exact exists_withSlash _
    · exact ⟨_, rfl⟩

/-- One segment less leaves a slash at the end. -/
theorem exists_shorten (remote : kind ≠ .file) (front : List Char) :
    ∃ rest, shorten kind (front ++ ['/']) = rest ++ ['/'] := by
  unfold shorten
  simp only [remote, false_and, if_false, List.getLast?_concat, beq_self_eq_true, if_true,
    List.dropLast_concat]
  refine exists_upToSlash ?_
  split
  · rename_i inner
    rw [Bool.and_eq_true, List.contains_iff_mem] at inner
    exact inner.1
  · exact List.mem_append_right _ List.mem_cons_self

/-- The last segment of a path is no detour, since detours are taken when they are read. -/
theorem endsPlain_addSegment (remote : kind ≠ .file) (front : List Char) (single : '/' ∉ segment) :
    EndsPlain (addSegment kind (front ++ ['/']) segment false) := by
  unfold addSegment
  split
  · obtain ⟨rest, hrest⟩ := exists_shorten remote front
    dsimp only
    rw [if_neg Bool.false_ne_true, hrest]
    exact endsPlain_slash rest
  · rename_i forward
    split
    · obtain ⟨rest, hrest⟩ := exists_withSlash (front ++ ['/'])
      rw [hrest]
      exact endsPlain_slash rest
    · rename_i leaves
      refine ⟨front, segment, ?_, single, ?_, ?_⟩
      · simp [remote]
      · rintro rfl
        exact leaves (by decide)
      · rintro rfl
        exact forward (by decide)

/-- Whatever segments are read after a slash, the path ends plainly. -/
theorem endsPlain_readSegments (remote : kind ≠ .file) (front s : List Char) (single : '/' ∉ segment) :
    EndsPlain (readSegments kind (front ++ ['/']) segment s) := by
  -- Each separator closes a segment with a slash, so the rest is read from behind a slash again.
  induction s generalizing front segment with
  | nil =>
    rw [readSegments]
    refine endsPlain_addSegment remote front (slash_not_mem_percentEncode ?_)
    rwa [List.mem_reverse]
  | cons c s ih =>
    rw [readSegments]
    split
    · obtain ⟨next, hnext⟩ := exists_addSegment_more kind (front ++ ['/'])
        (percentEncode inPathSet segment.reverse)
      rw [hnext]
      exact ih next List.not_mem_nil
    · rename_i inner
      refine ih front (List.not_mem_cons_of_ne_of_not_mem ?_ single)
      rintro rfl
      exact inner (by simp [isSeparator])

theorem endsPlain_normalisePath (remote : kind ≠ .file) (s : List Char) :
    EndsPlain (normalisePath kind ['/'] s) := by
  unfold normalisePath
  rw [if_neg remote]
  exact endsPlain_readSegments remote [] s List.not_mem_nil

/-- A path that has nothing in front starts with its own slash. -/
theorem normalisePath_slash (s : List Char) :
    normalisePath .other [] ('/' :: s) = normalisePath .other ['/'] s := rfl

end Segments

section Reading

variable {u : Url} {scheme s : List Char}

/-- A URL with segments has a last one that is no detour. -/
def IsSafe (u : Url) : Prop := u.segments? = none ∨ EndsPlain u.path

theorem isSafe_of_head? (h : u.path.head? ≠ some '/') : u.IsSafe := by
  refine .inl ?_
  unfold segments?
  split
  · rename_i slash
    rw [slash] at h
    exact absurd rfl h
  · rfl

/-- The path behind an authority is empty, or it starts with a separator. -/
theorem endsPlain_pathAfterHost {kind : SchemeKind} (remote : kind ≠ .file)
    (start : ∀ c ∈ s.head?, endsAuthority kind c = true) :
    pathAfterHost kind s = [] ∨ EndsPlain (pathAfterHost kind s) := by
  cases kind with
  | file => exact absurd rfl remote
  | special =>
    right
    unfold pathAfterHost
    dsimp only
    cases beforeQuery s with
    | nil => exact endsPlain_normalisePath remote _
    | cons c r => exact endsPlain_normalisePath remote _
  | other =>
    unfold pathAfterHost
    dsimp only
    cases s with
    | nil => exact .inl rfl
    | cons c s =>
      by_cases slash : c = '/'
      · right
        rw [slash, beforeQuery, List.takeWhile_cons, if_pos (by decide), normalisePath_slash]
        exact endsPlain_normalisePath remote _
      · left
        have ended : c = '?' ∨ c = '#' := by
          simpa [endsAuthority, isSeparator, slash] using start c rfl
        have stop : (c != '?' && c != '#') = false := by
          rcases ended with rfl | rfl <;> decide
        rw [beforeQuery, List.takeWhile_cons, stop, if_neg Bool.false_ne_true]

theorem isSafe_of_readAuthority {kind : SchemeKind} (remote : kind ≠ .file)
    (h : readAuthority kind scheme s = some u) : u.IsSafe := by
  unfold readAuthority at h
  rw [List.span_eq_takeWhile_dropWhile] at h
  obtain ⟨host, -, rfl⟩ := Option.map_eq_some_iff.mp h
  have start : ∀ c ∈ (s.dropWhile fun c => !endsAuthority kind c).head?, endsAuthority kind c = true := by
    intro c hc
    have stop := List.head?_dropWhile_not (fun c => !endsAuthority kind c) s
    rw [Option.mem_def.mp hc] at stop
    simpa using stop
  rcases endsPlain_pathAfterHost remote start with none | plain
  · refine isSafe_of_head? ?_
    dsimp only
    rw [none]
    exact nofun
  · exact .inr plain

theorem isSafe_of_readOther (h : readOther scheme s = some u) : u.IsSafe := by
  have remote : SchemeKind.other ≠ .file := by decide
  unfold readOther at h
  split at h
  · exact isSafe_of_readAuthority remote h
  · obtain rfl := Option.some.inj h
    exact .inr (endsPlain_normalisePath remote _)
  · rename_i authority rooted
    obtain rfl := Option.some.inj h
    -- Such a path is opaque: it does not start with a slash, and encoding does not write one.
    refine isSafe_of_head? fun slash => ?_
    have first := head?_of_percentEncode slash
    cases s with
    | nil => cases first
    | cons c s =>
      rw [beforeQuery, List.takeWhile_cons] at first
      split at first
      · obtain rfl := Option.some.inj first
        exact rooted s rfl
      · cases first

theorem schemeKind_ne_file (h : scheme ≠ "file".toList) : schemeKind scheme ≠ .file := by
  unfold schemeKind
  rw [beq_eq_false_iff_ne.mpr h, if_neg Bool.false_ne_true]
  split_ifs <;> decide

theorem scheme_of_readFile (h : readFile scheme s = some u) : u.scheme = scheme := by
  have place : ∀ {s}, readFile.readLocal scheme s = some u → u.scheme = scheme := by
    intro s h
    unfold readFile.readLocal at h
    dsimp only at h
    split at h <;> exact (Option.some.inj h) ▸ rfl
  unfold readFile at h
  split at h
  · split at h
    · dsimp only at h
      split at h
      · exact (Option.some.inj h) ▸ rfl
      · split at h
        · exact (Option.some.inj h) ▸ rfl
        · split at h
          · cases h
          · exact (Option.some.inj h) ▸ rfl
    · exact place h
  · exact place h

/-- Reading keeps the last segment of a path from being a detour, unless it reads a `file:` URL. -/
theorem isSafe_of_read? (h : read? s = some u) (remote : u.scheme ≠ "file".toList) : u.IsSafe := by
  unfold read? at h
  split at h
  · cases h
  · rename_i scheme rest _
    dsimp only at h
    split at h
    · rename_i kind
      rw [scheme_of_readFile h] at remote
      exact absurd kind (schemeKind_ne_file remote)
    · have remote : SchemeKind.special ≠ .file := by decide
      exact isSafe_of_readAuthority remote h
    · exact isSafe_of_readOther h

/-- The last segment of a safe URL names something in a directory, if anything. -/
theorem isOrdinary_remoteName (safe : u.IsSafe) {name : List Char}
    (h : Manifest.remoteName? u = some name) : IsOrdinary name := by
  obtain ⟨last, filled⟩ := Option.filter_eq_some_iff.mp h
  obtain ⟨segments, hsegments, hlast⟩ := Option.bind_eq_some_iff.mp last
  rcases safe with none | ⟨front, name', path, single, leaves, forward⟩
  · rw [none] at hsegments
    cases hsegments
  · have found : segments.getLast? = some name' := by
      unfold segments? at hsegments
      split at hsegments
      · rename_i r slash
        obtain rfl := Option.some.inj hsegments
        cases front with
        | nil =>
          obtain rfl : name' = r := (List.cons.inj (path.symm.trans slash)).2
          rw [splitAt_of_not_mem single]
          rfl
        | cons c front =>
          obtain rfl : front ++ '/' :: name' = r := (List.cons.inj (path.symm.trans slash)).2
          rw [splitAt_append, splitAt_of_not_mem single, List.getLast?_concat]
      · cases hsegments
    obtain rfl := Option.some.inj (found.symm.trans hlast)
    refine ⟨?_, leaves, forward, single⟩
    rintro rfl
    cases filled

end Reading

end Url

namespace Manifest

variable {manifest parent path : Path} {iri : String}

/-- What an IRI names lies right in the directory of the manifest, unless it is a `file:` IRI. -/
theorem remote_stays_beside
    (remote : ∀ url, Url.read? iri.toList = some url → url.scheme ≠ "file".toList)
    (hparent : manifest.parent? = some parent) (h : resolve? manifest (.iri iri) = some path) :
    ∃ name, IsOrdinary name ∧ path = parent.join ⟨String.ofList name⟩ ∧
      path.names = parent.names ++ [name] ∧ path.isAbsolute = parent.isAbsolute := by
  unfold resolve? at h
  dsimp only at h
  split at h
  · cases h
  · rename_i url read
    have scheme := remote url read
    rw [if_neg (Url.schemeKind_ne_file scheme)] at h
    obtain ⟨name, hname, rfl⟩ := Option.map_eq_some_iff.mp h
    have ordinary := Url.isOrdinary_remoteName (Url.isSafe_of_read? read scheme) hname
    have directory : base manifest = parent := by
      rw [base, hparent, Option.getD_some]
    rw [directory]
    exact ⟨name, ordinary, rfl, Path.names_join parent ordinary,
      Path.isAbsolute_join_ofName parent ordinary.single⟩

/-- Encoded slashes and backslashes stay in the name, after dots in two spellings have been followed. -/
theorem remote_stays_beside_encoded :
    resolve? ⟨"/d/m.nt"⟩ (.iri "http://h/a\\%2E./b/..%2f..%5Cq.rq") = some ⟨"/d/..%2f..%5Cq.rq"⟩ ∧
      ∃ name, IsOrdinary name ∧ (⟨"/d/..%2f..%5Cq.rq"⟩ : Path) = Path.join ⟨"/d"⟩ ⟨String.ofList name⟩ ∧
        Path.names ⟨"/d/..%2f..%5Cq.rq"⟩ = Path.names ⟨"/d"⟩ ++ [name] ∧
        Path.isAbsolute ⟨"/d/..%2f..%5Cq.rq"⟩ = Path.isAbsolute ⟨"/d"⟩ := by
  have scheme : (Url.read? "http://h/a\\%2E./b/..%2f..%5Cq.rq".toList).map Url.scheme
      = some "http".toList := by
    decide +kernel
  have remote : ∀ url, Url.read? "http://h/a\\%2E./b/..%2f..%5Cq.rq".toList = some url →
      url.scheme ≠ "file".toList := by
    intro url read
    rw [read, Option.map_some, Option.some_inj] at scheme
    rw [scheme]
    decide
  have hparent : Path.parent? ⟨"/d/m.nt"⟩ = some ⟨"/d"⟩ := by
    decide +kernel
  have h : resolve? ⟨"/d/m.nt"⟩ (.iri "http://h/a\\%2E./b/..%2f..%5Cq.rq")
      = some ⟨"/d/..%2f..%5Cq.rq"⟩ := by
    decide +kernel
  exact ⟨h, remote_stays_beside remote hparent h⟩

end Manifest

end SparqlConformance
