import SparqlConformance.Proofs.IriCharacters
import SparqlConformance.Proofs.LabelReading
import SparqlConformance.Proofs.LowercaseTags
/-!
# Reading triples back

Which triples strict reading gives, and that reading gives such a triple back from the line that is written
for it, whether strict or lenient, once the labels of its blank nodes are read to their end. Plain labels are.
-/
namespace SparqlConformance

open Text

/-- Literals as strict reading gives them. -/
def Literal.IsReadable : Literal → Prop
  | plain _ => True
  | tagged _ language => NTriples.IsReadableTag language.toList
  | typed _ datatype => Iri.isAbsolute datatype.toList = true ∧ datatype ≠ xsdString

/-- Terms as strict reading gives them. -/
def Term.IsReadable : Term → Prop
  | iri text => Iri.isAbsolute text.toList = true
  | blank _ => True
  | literal l => l.IsReadable

/-- Triples as strict reading gives them. -/
structure Triple.IsReadable (t : Triple) : Prop where
  subject : t.subject.IsReadable
  resource : ∀ l, t.subject ≠ .literal l
  predicate : Iri.isAbsolute t.predicate.toList = true
  object : t.object.IsReadable

/-- Triples as lines show them. -/
structure Triple.IsWritten (t : Triple) : Prop extends t.IsReadable where
  plain : ∀ l ∈ t.labels, IsPlainLabel l

/-- Triples that are read back from their lines. -/
structure Triple.IsWhole (t : Triple) : Prop extends t.IsReadable where
  whole : ∀ l ∈ t.labels, IsWholeLabel l

theorem Triple.IsWritten.isWhole {t : Triple} (h : t.IsWritten) : t.IsWhole :=
  ⟨h.toIsReadable, fun l hl => (h.plain l hl).isWhole⟩

theorem Triple.IsWhole.whole_subject {t : Triple} (h : t.IsWhole) :
    ∀ l, t.subject.label? = some l → IsWholeLabel l := fun l hl =>
  h.whole l (Triple.mem_labels.mpr (Or.inl hl))

theorem Triple.IsWhole.whole_object {t : Triple} (h : t.IsWhole) :
    ∀ l, t.object.label? = some l → IsWholeLabel l := fun l hl =>
  h.whole l (Triple.mem_labels.mpr (Or.inr hl))

theorem not_mem_of_isAbsolute {s : List Char} (h : Iri.isAbsolute s = true) :
    '>' ∉ s ∧ '\\' ∉ s ∧ '\n' ∉ s := by
  have hverbatim := Iri.verbatim_of_isAbsolute h
  refine ⟨?_, ?_, ?_⟩ <;> exact fun hmem => absurd (hverbatim _ hmem) (by decide)

theorem Term.isReadable_relabel {f : String → String} {t : Term} (h : t.IsReadable) :
    (t.relabel f).IsReadable := by
  cases t with
  | blank _ => trivial
  | iri _ => exact h
  | literal _ => exact h

theorem Triple.IsReadable.relabel {f : String → String} {t : Triple} (h : t.IsReadable) :
    (t.relabel f).IsReadable := by
  refine ⟨Term.isReadable_relabel h.subject, ?_, h.predicate, Term.isReadable_relabel h.object⟩
  intro l heq
  cases hsubject : t.subject with
  | iri i => simp [Triple.relabel, hsubject, Term.relabel] at heq
  | blank k => simp [Triple.relabel, hsubject, Term.relabel] at heq
  | literal k => exact h.resource k hsubject

/-- Plain labels make a readable triple one that lines show. -/
theorem Triple.IsReadable.isWritten_relabel {f : String → String} {t : Triple} (h : t.IsReadable)
    (plain : ∀ l ∈ t.labels, IsPlainLabel (f l)) : (t.relabel f).IsWritten := by
  refine ⟨h.relabel, fun l hl => ?_⟩
  rw [Triple.labels_relabel, List.mem_map] at hl
  obtain ⟨m, hm, rfl⟩ := hl
  exact plain m hm

namespace NTriples

theorem readUntil_cons {mode : Mode} {close c : Char} {short : Bool} (hclose : c ≠ close)
    (hslash : c ≠ '\\') (r : List Char) : readUntil mode close short (c :: r) =
      (readUntil mode close short r).map fun (s, rest) => (c :: s, rest) := by
  rw [readUntil.eq_def]
  split <;> simp_all

theorem readUntil_verbatim (mode : Mode) {s : List Char} (h : '>' ∉ s ∧ '\\' ∉ s)
    (rest : List Char) : readUntil mode '>' false (s ++ '>' :: rest) = some (s, rest) := by
  induction s with
  | nil => simp [readUntil]
  | cons c s ih =>
    simp only [List.mem_cons, not_or] at h
    rw [List.cons_append, readUntil_cons (Ne.symm h.1.1) (Ne.symm h.2.1), ih ⟨h.1.2, h.2.2⟩]
    rfl

/-- An absolute IRI is read back from between angle brackets. -/
theorem readIri_angled (mode : Mode) {iri : List Char} (h : Iri.isAbsolute iri = true) (rest : List Char) :
    readIri mode (angled iri ++ rest) = some (String.ofList iri, rest) := by
  obtain ⟨hbracket, hslash, _⟩ := not_mem_of_isAbsolute h
  obtain ⟨c, r, rfl, hc⟩ := Iri.head_of_isAbsolute h
  have hhead : (c :: r ++ '>' :: rest).head? ≠ some '<' := by
    intro heq
    rw [Option.some.inj heq] at hc
    cases hc
  have hread : readUntil mode '>' false (c :: r ++ '>' :: rest) = some (c :: r, rest) :=
    readUntil_verbatim mode ⟨hbracket, hslash⟩ rest
  have htext : angled (c :: r) ++ rest = '<' :: (c :: r ++ '>' :: rest) := by simp [angled]
  rw [htext, readIri]
  simp only [if_neg hhead, hread, h, or_true, if_true]

theorem skipSpace_cons {c : Char} (h : isBlankSpace c = false) (s : List Char) :
    skipSpace (c :: s) = c :: s := by
  simp [skipSpace, h]

theorem skipSpace_space (s : List Char) : skipSpace (' ' :: s) = skipSpace s := rfl

theorem readLiteral_quoted (mode : Mode) (v : String) (r : List Char) :
    readLiteral mode (quoted v.toList ++ r) = readAnnotation mode v r := by
  have htext : quoted v.toList ++ r = '"' :: (v.toList.flatMap escapeChar ++ '"' :: r) := by
    simp [quoted]
  rw [htext, readLiteral, readUntil_quoted]
  simp only [String.ofList_toList]

theorem readAnnotation_tag (mode : Mode) (v : String) (r : List Char) :
    readAnnotation mode v ('@' :: r) = (readTag mode r).map fun (tag, rest) => (.tagged v tag, rest) := by
  have hat : isBlankSpace '@' = false := by decide
  rw [ readAnnotation, skipSpace_cons hat]
  rfl

theorem readLiteral_render (mode : Mode) {l : Literal} (h : l.IsReadable) :
    readLiteral mode (l.render ++ [' ', '.']) = some (l, [' ', '.']) := by
  cases l with
  | plain v =>
    rw [Literal.render, readLiteral_quoted]
    rfl
  | tagged v language =>
    rw [Literal.render, List.append_assoc, readLiteral_quoted, List.cons_append, readAnnotation_tag,
      readTag_readable mode h, Option.map_some, String.ofList_toList]
  | typed v datatype =>
    have hcaret : isBlankSpace '^' = false := by decide
    have hangle : isBlankSpace '<' = false := by decide
    have hiri : skipSpace (angled datatype.toList ++ [' ', '.']) =
        angled datatype.toList ++ [' ', '.'] := skipSpace_cons hangle _
    rw [Literal.render, List.append_assoc, readLiteral_quoted, List.cons_append, List.cons_append,
      readAnnotation, skipSpace_cons hcaret]
    simp only [hiri, readIri_angled mode h.1, Option.map_some, Literal.ofDatatype, if_neg h.2,
      String.ofList_toList]

theorem readSubject_render (mode : Mode) {t : Term} (h : t.IsReadable) (resource : ∀ l, t ≠ .literal l)
    (whole : ∀ l, t.label? = some l → IsWholeLabel l) (rest : List Char) :
    readSubject mode (t.render ++ ' ' :: rest) = some (t, ' ' :: rest) := by
  cases t with
  | iri i =>
    simp only [readSubject, Term.render, readIri_angled mode h, String.ofList_toList]
  | blank l =>
    have hiri : readIri mode ('_' :: ':' :: (l.toList ++ ' ' :: rest)) = none := rfl
    have stops : labelRun (' ' :: rest) = some ([], ' ' :: rest) :=
      labelRun_stop (by decide) (by decide) rest
    have hblank := readBlank_whole (whole l rfl) stops
    simp only [readSubject, Term.render, List.cons_append, hiri, hblank, Option.map_some]
  | literal l => exact absurd rfl (resource l)

theorem readObject_render (mode : Mode) {t : Term} (h : t.IsReadable)
    (whole : ∀ l, t.label? = some l → IsWholeLabel l) :
    readObject mode (t.render ++ [' ', '.']) = some (t, [' ', '.']) := by
  have named : (∀ l, t ≠ .literal l) →
      readObject mode (t.render ++ [' ', '.']) = some (t, [' ', '.']) := by
    intro resource
    simp only [readObject, readSubject_render mode h resource whole ['.']]
  cases t with
  | iri i => exact named fun l => by simp
  | blank l => exact named fun m => by simp
  | literal l =>
    have hsubject : readSubject mode (l.render ++ [' ', '.']) = none := by
      cases l <;> rfl
    simp only [readObject, Term.render, hsubject, readLiteral_render mode h, Option.map_some]

theorem skipSpace_render (t : Term) (rest : List Char) :
    skipSpace (t.render ++ rest) = t.render ++ rest := by
  rcases t with i | l | (v | ⟨v, g⟩ | ⟨v, d⟩) <;> exact skipSpace_cons (by decide) _

/-- A readable triple is read back from its line once its labels are read to their end. -/
theorem readTriple_render (mode : Mode) {t : Triple} (h : t.IsWhole) : readTriple mode t.render = some t := by
  have htext : t.render = t.subject.render ++ ' ' :: (angled t.predicate.toList ++
      ' ' :: (t.object.render ++ [' ', '.'])) := by
    simp [Triple.render]
  have hiri : ∀ rest, skipSpace (angled t.predicate.toList ++ rest) =
      angled t.predicate.toList ++ rest := fun rest => skipSpace_cons (by decide) _
  have hends : endsTriple [' ', '.'] = true := by decide
  rw [htext, readTriple]
  simp only [Option.bind_eq_bind, skipSpace_render, skipSpace_space,
    readSubject_render mode h.subject h.resource h.whole_subject, Option.bind_some, hiri,
    readIri_angled mode h.predicate, readObject_render mode h.object h.whole_object, hends, if_true,
    String.ofList_toList]

end NTriples

theorem escapeChar_no_feed (c : Char) : '\n' ∉ escapeChar c := by
  have hex : ∀ n, '\n' ∉ hexByte n := by
    intro n
    have digit : ∀ d, d < 16 → '\n' ≠ upperHexDigit d := by decide
    simp [hexByte, digit _ (Nat.mod_lt _ (by omega : 0 < 16))]
  by_cases hc : c = '\n'
  · rw [hc]
    decide
  · unfold escapeChar
    split_ifs <;> simp [hex, Ne.symm hc]

theorem quoted_no_feed (s : List Char) : '\n' ∉ quoted s := by
  simp [quoted, escapeChar_no_feed]

theorem angled_no_feed {iri : List Char} (h : Iri.isAbsolute iri = true) : '\n' ∉ angled iri := by
  simp [angled, (not_mem_of_isAbsolute h).2.2]

theorem Term.render_no_feed {t : Term} (h : t.IsReadable)
    (plain : ∀ l, t.label? = some l → IsPlainLabel l) : '\n' ∉ t.render := by
  rcases t with i | l | (v | ⟨v, g⟩ | ⟨v, d⟩)
  · exact angled_no_feed h
  · have hlabel : '\n' ∉ l.toList := fun hmem => absurd ((plain l rfl).chars _ hmem) (by decide)
    simp [Term.render, hlabel]
  · exact quoted_no_feed _
  · have htag : '\n' ∉ g.toList := by
      intro hmem
      rcases NTriples.IsReadableTag.chars h _ hmem with hfeed | hfeed <;> cases hfeed
    simp [Term.render, Literal.render, quoted_no_feed, htag]
  · simp [Term.render, Literal.render, quoted_no_feed, angled_no_feed h.1]

theorem Triple.render_no_feed {t : Triple} (h : t.IsWritten) : '\n' ∉ t.render := by
  have plain : ∀ l, t.subject.label? = some l ∨ t.object.label? = some l → IsPlainLabel l := fun l hl =>
    h.plain l (Triple.mem_labels.mpr hl)
  simp [Triple.render, Term.render_no_feed h.subject fun l hl => plain l (.inl hl),
    angled_no_feed h.predicate, Term.render_no_feed h.object fun l hl => plain l (.inr hl)]

/-- A line starts with a bracket or an underscore and ends with a dot. -/
theorem Triple.render_ends {t : Triple} (resource : ∀ l, t.subject ≠ .literal l) :
    ∃ c m, t.render = c :: (m ++ ['.']) ∧ (c = '<' ∨ c = '_') := by
  obtain ⟨subject, predicate, object⟩ := t
  cases subject with
  | iri i =>
    refine ⟨'<', i.toList ++ '>' :: ' ' :: (angled predicate.toList ++ ' ' :: object.render ++ [' ']),
      ?_, Or.inl rfl⟩
    simp [Triple.render, Term.render, angled]
  | blank l =>
    refine ⟨'_', ':' :: l.toList ++ ' ' :: (angled predicate.toList ++ ' ' :: object.render ++ [' ']),
      ?_, Or.inr rfl⟩
    simp [Triple.render, Term.render, angled]
  | literal l => exact absurd rfl (resource l)

end SparqlConformance
