import Mathlib.Data.List.TakeDrop
import SparqlConformance.Rdf.Iri
/-!
# Characters of IRIs

No absolute IRI holds a character that would end or escape it between angle brackets. The grammar has
many parts; each part only takes such characters, and the separators between them are such characters.
-/
namespace SparqlConformance

open Text

/-- Characters that stand for themselves between angle brackets and within a line. -/
def isVerbatim (c : Char) : Bool := c != '>' && c != '\\' && c != '\n'

theorem isVerbatim_iff {c : Char} : isVerbatim c = true ↔ c ≠ '>' ∧ c ≠ '\\' ∧ c ≠ '\n' := by
  simp [isVerbatim, and_assoc]

/-- A class of characters without the three special ones holds verbatim characters only. -/
theorem isVerbatim_of_class {ok : Char → Bool}
    (special : ok '>' = false ∧ ok '\\' = false ∧ ok '\n' = false) {c : Char} (h : ok c = true) : isVerbatim c = true := by
  obtain ⟨bracket, backslash, feed⟩ := special
  refine isVerbatim_iff.mpr ⟨?_, ?_, ?_⟩
  · rintro rfl
    exact absurd h (by simp [bracket])
  · rintro rfl
    exact absurd h (by simp [backslash])
  · rintro rfl
    exact absurd h (by simp [feed])

theorem eq_append_of_cutFirst {c : Char} {s a b : List Char} (h : cutFirst c s = some (a, b)) :
    s = a ++ c :: b := by
  induction s generalizing a with
  | nil => cases h
  | cons d s ih =>
    unfold cutFirst at h
    split at h
    · rename_i hd
      obtain ⟨rfl, rfl⟩ := Prod.mk.inj (Option.some.inj h)
      rw [hd]
      rfl
    · obtain ⟨⟨a', b'⟩, hcut, heq⟩ := Option.map_eq_some_iff.mp h
      obtain ⟨rfl, rfl⟩ := Prod.mk.inj heq
      rw [ih hcut]
      rfl

theorem eq_append_of_cutAt {pat s a b : List Char} (h : cutAt pat s = some (a, b)) :
    s = a ++ (pat ++ b) := by
  induction s generalizing a with
  | nil =>
    unfold cutAt at h
    split at h
    · rename_i hpat
      obtain ⟨rfl, rfl⟩ := Prod.mk.inj (Option.some.inj h)
      rw [List.isEmpty_iff.mp hpat]
      rfl
    · cases h
  | cons c s ih =>
    unfold cutAt at h
    split at h
    · rename_i rest hstrip
      obtain ⟨rfl, rfl⟩ := Prod.mk.inj (Option.some.inj h)
      show c :: s = pat ++ rest
      exact eq_append_of_stripStart hstrip
    · obtain ⟨⟨a', b'⟩, hcut, heq⟩ := Option.map_eq_some_iff.mp h
      obtain ⟨rfl, rfl⟩ := Prod.mk.inj heq
      rw [ih hcut]
      rfl

/-- Every character is the separator or belongs to a piece. -/
theorem mem_splitAt (sep : Char) {s : List Char} {c : Char} (h : c ∈ s) :
    c = sep ∨ ∃ p ∈ splitAt sep s, c ∈ p := by
  induction s with
  | nil => cases h
  | cons d s ih =>
    unfold splitAt
    by_cases hd : d = sep
    · rw [if_pos hd]
      rcases List.mem_cons.mp h with rfl | hmem
      · exact Or.inl hd
      · rcases ih hmem with hsep | ⟨p, hp, hcp⟩
        · exact Or.inl hsep
        · exact Or.inr ⟨p, List.mem_cons_of_mem _ hp, hcp⟩
    · rw [if_neg hd]
      cases hsplit : splitAt sep s with
      | nil =>
        rcases List.mem_cons.mp h with rfl | hmem
        · exact Or.inr ⟨[c], List.mem_cons_self .., List.mem_cons_self ..⟩
        · rcases ih hmem with hsep | ⟨p, hp, hcp⟩
          · exact Or.inl hsep
          · rw [hsplit] at hp
            cases hp
      | cons q qs =>
        rcases List.mem_cons.mp h with rfl | hmem
        · exact Or.inr ⟨c :: q, List.mem_cons_self .., List.mem_cons_self ..⟩
        · rcases ih hmem with hsep | ⟨p, hp, hcp⟩
          · exact Or.inl hsep
          · rw [hsplit] at hp
            rcases List.mem_cons.mp hp with rfl | hp
            · exact Or.inr ⟨d :: p, List.mem_cons_self .., List.mem_cons_of_mem _ hcp⟩
            · exact Or.inr ⟨p, List.mem_cons_of_mem _ hp, hcp⟩

namespace Iri

/-- A text of verbatim characters only. -/
def Verbatim (s : List Char) : Prop := ∀ c ∈ s, isVerbatim c = true

namespace Verbatim

theorem append {s t : List Char} (hs : Verbatim s) (ht : Verbatim t) : Verbatim (s ++ t) := by
  intro c hc
  rcases List.mem_append.mp hc with h | h
  · exact hs c h
  · exact ht c h

theorem cons {c : Char} {s : List Char} (hc : isVerbatim c = true) (hs : Verbatim s) :
    Verbatim (c :: s) := by
  intro d hd
  rcases List.mem_cons.mp hd with rfl | h
  · exact hc
  · exact hs d h

theorem of_all {ok : Char → Bool} (special : ok '>' = false ∧ ok '\\' = false ∧ ok '\n' = false)
    {s : List Char} (h : s.all ok = true) : Verbatim s := fun c hc =>
  isVerbatim_of_class special (List.all_eq_true.mp h c hc)

theorem of_cutFirst {c : Char} (hc : isVerbatim c = true) {s a b : List Char}
    (h : cutFirst c s = some (a, b)) (ha : Verbatim a) (hb : Verbatim b) : Verbatim s := by
  rw [eq_append_of_cutFirst h]
  exact ha.append (hb.cons hc)

theorem of_splitAt (sep : Char) (hsep : isVerbatim sep = true) {s : List Char}
    (h : ∀ p ∈ splitAt sep s, Verbatim p) : Verbatim s := by
  intro c hc
  rcases mem_splitAt sep hc with rfl | ⟨p, hp, hcp⟩
  · exact hsep
  · exact h p hp c hcp

end Verbatim

theorem verbatim_of_escapedAll {ok : Char → Bool}
    (special : ok '>' = false ∧ ok '\\' = false ∧ ok '\n' = false) {s : List Char}
    (h : escapedAll ok s = true) : Verbatim s := by
  have hex : ∀ {c : Char}, isHexDigit c = true → isVerbatim c = true :=
    isVerbatim_of_class (by decide)
  induction s using escapedAll.induct with
  | case1 => exact fun c hc => absurd hc List.not_mem_nil
  | case2 a b r ih =>
    simp only [escapedAll, Bool.and_eq_true] at h
    exact (((ih h.2).cons (hex h.1.2)).cons (hex h.1.1)).cons (by decide)
  | case3 c r _ ih =>
    rw [escapedAll.eq_3 _ _ _ (by assumption), Bool.and_eq_true] at h
    exact (ih h.2).cons (isVerbatim_of_class special h.1)

theorem verbatim_of_isIpv4 {s : List Char} (h : isIpv4 s = true) : Verbatim s := by
  simp only [isIpv4, Bool.and_eq_true] at h
  apply Verbatim.of_splitAt '.' (by decide)
  intro p hp
  have hbyte := List.all_eq_true.mp h.2 p hp
  unfold isByteText at hbyte
  split at hbyte
  · exact Verbatim.of_all (by decide) (Bool.and_eq_true_iff.mp hbyte).1
  · cases hbyte

theorem verbatim_of_isGroup {s : List Char} (h : isGroup s = true) : Verbatim s := by
  simp only [isGroup, Bool.and_eq_true] at h
  exact Verbatim.of_all (by decide) h.2

theorem verbatim_of_groupCount {mixed : Bool} {ps : List (List Char)} {n : Nat}
    (h : groupCount mixed ps = some n) : ∀ p ∈ ps, Verbatim p := by
  induction ps generalizing n with
  | nil => exact fun p hp => absurd hp List.not_mem_nil
  | cons p ps ih =>
    cases ps with
    | nil =>
      intro q hq
      rw [List.mem_singleton.mp hq]
      by_cases hp : isGroup p = true
      · exact verbatim_of_isGroup hp
      · rw [groupCount, if_neg hp] at h
        split at h
        · rename_i hmixed
          exact verbatim_of_isIpv4 (Bool.and_eq_true_iff.mp hmixed).2
        · cases h
    | cons p' ps =>
      rw [groupCount] at h
      · split at h
        · rename_i hp
          obtain ⟨m, hm, _⟩ := Option.map_eq_some_iff.mp h
          intro q hq
          rcases List.mem_cons.mp hq with rfl | hq
          · exact verbatim_of_isGroup hp
          · exact ih hm q hq
        · cases h
      · exact List.cons_ne_nil _ _

theorem verbatim_of_groups {mixed : Bool} {s : List Char} {n : Nat} (h : groups mixed s = some n) :
    Verbatim s := by
  unfold groups at h
  split at h
  · rename_i hempty
    rw [List.isEmpty_iff.mp hempty]
    exact fun c hc => absurd hc List.not_mem_nil
  · exact Verbatim.of_splitAt ':' (by decide) (verbatim_of_groupCount h)

theorem verbatim_of_isIpv6 {s : List Char} (h : isIpv6 s = true) : Verbatim s := by
  unfold isIpv6 at h
  split at h
  · exact verbatim_of_groups (n := 8) (by simpa using h)
  · rename_i l r hcut
    split at h
    · rename_i hl hr
      have hright : Verbatim (':' :: ':' :: r) :=
        ((verbatim_of_groups hr).cons (by decide)).cons (by decide)
      rw [eq_append_of_cutAt hcut]
      exact (verbatim_of_groups hl).append hright
    · cases h

theorem verbatim_of_isIpFuture {s : List Char} (h : isIpFuture s = true) : Verbatim s := by
  unfold isIpFuture at h
  split at h
  · rename_i v version address hcut
    simp only [Bool.and_eq_true, Bool.or_eq_true, beq_iff_eq] at h
    obtain ⟨⟨⟨⟨hv, _⟩, hversion⟩, _⟩, haddress⟩ := h
    have hmark : isVerbatim v = true := by rcases hv with rfl | rfl <;> decide
    refine Verbatim.of_cutFirst (by decide) hcut ?_ (Verbatim.of_all (by decide) haddress)
    exact (Verbatim.of_all (by decide) hversion).cons hmark
  · cases h

theorem verbatim_of_isHostPort {s : List Char} (h : isHostPort s = true) : Verbatim s := by
  have port : ∀ {n : List Char}, isPort n = true → Verbatim n := Verbatim.of_all (by decide)
  have plain : isPlain '>' = false ∧ isPlain '\\' = false ∧ isPlain '\n' = false := by decide
  unfold isHostPort at h
  split at h
  · rename_i r
    apply Verbatim.cons (by decide)
    split at h
    · cases h
    · rename_i ip rest hcut
      simp only [Bool.and_eq_true, isIpLiteral, Bool.or_eq_true] at h
      have haddress : Verbatim ip := h.1.elim verbatim_of_isIpv6 verbatim_of_isIpFuture
      refine Verbatim.of_cutFirst (by decide) hcut haddress ?_
      have hrest := h.2
      split at hrest
      · exact fun c hc => absurd hc List.not_mem_nil
      · exact (port hrest).cons (by decide)
      · cases hrest
  · split at h
    · exact verbatim_of_escapedAll plain h
    · rename_i host number hcut
      rw [Bool.and_eq_true] at h
      exact Verbatim.of_cutFirst (by decide) hcut (verbatim_of_escapedAll plain h.1) (port h.2)

theorem verbatim_of_isAuthority {s : List Char} (h : isAuthority s = true) : Verbatim s := by
  unfold isAuthority at h
  split at h
  · rename_i user rest hcut
    split at h
    · exact verbatim_of_isHostPort h
    · rw [Bool.and_eq_true] at h
      exact Verbatim.of_cutFirst (by decide) hcut (verbatim_of_escapedAll (by decide) h.1)
        (verbatim_of_isHostPort h.2)
  · exact verbatim_of_isHostPort h

theorem verbatim_of_isTail {s : List Char} (h : isTail s = true) : Verbatim s := by
  have rejoin : ∀ {c : Char} {t : List Char}, isVerbatim c = true →
      Verbatim ((cutFirst c t).getD (t, [])).1 → Verbatim ((cutFirst c t).getD (t, [])).2 →
      Verbatim t := by
    intro c t hc hfront hback
    cases hcut : cutFirst c t with
    | none =>
      rw [hcut] at hfront
      exact hfront
    | some ab =>
      rw [hcut] at hfront hback
      exact Verbatim.of_cutFirst hc hcut hfront hback
  simp only [isTail, Bool.and_eq_true] at h
  obtain ⟨⟨hpath, hquery⟩, hfragment⟩ := h
  refine rejoin (c := '#') (by decide) (rejoin (c := '?') (by decide) ?_ ?_) ?_
  · exact verbatim_of_escapedAll (by decide) hpath
  · exact verbatim_of_escapedAll (by decide) hquery
  · exact verbatim_of_escapedAll (by decide) hfragment

theorem verbatim_of_span {p : Char → Bool} {s : List Char} (hfront : Verbatim (s.span p).1)
    (hback : Verbatim (s.span p).2) : Verbatim s := by
  rw [List.span_eq_takeWhile_dropWhile] at hfront hback
  rw [← List.takeWhile_append_dropWhile (p := p) (l := s)]
  exact hfront.append hback

theorem verbatim_of_isHierarchy {s : List Char} (h : isHierarchy s = true) : Verbatim s := by
  unfold isHierarchy at h
  split at h
  · simp only [Bool.and_eq_true] at h
    have hrest := verbatim_of_span (verbatim_of_isAuthority h.1) (verbatim_of_isTail h.2)
    exact (hrest.cons (by decide)).cons (by decide)
  · exact verbatim_of_isTail h

/-- Absolute IRIs stand between angle brackets as they are. -/
theorem verbatim_of_isAbsolute {s : List Char} (h : isAbsolute s = true) : Verbatim s := by
  unfold isAbsolute at h
  split at h
  · rename_i scheme rest hscheme
    unfold afterScheme? at hscheme
    split at hscheme
    · split at hscheme
      · split at hscheme
        · rename_i hspan
          obtain ⟨rfl, rfl⟩ := Prod.mk.inj (Option.some.inj hscheme)
          refine verbatim_of_span (p := isSchemeChar) ?_ ?_
          · rw [List.span_eq_takeWhile_dropWhile]
            exact Verbatim.of_all (by decide) List.all_takeWhile
          · rw [hspan]
            exact (verbatim_of_isHierarchy h).cons (by decide)
        · cases hscheme
      · cases hscheme
    · cases hscheme
  · cases h

theorem head_of_isAbsolute {s : List Char} (h : isAbsolute s = true) :
    ∃ c r, s = c :: r ∧ c.isAlpha = true := by
  unfold isAbsolute at h
  split at h
  · rename_i hscheme
    unfold afterScheme? at hscheme
    split at hscheme
    · rename_i c r
      split at hscheme
      · exact ⟨c, r, rfl, by assumption⟩
      · cases hscheme
    · cases hscheme
  · cases h

end Iri

end SparqlConformance
