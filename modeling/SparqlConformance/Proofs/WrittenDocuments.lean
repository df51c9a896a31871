import SparqlConformance.Proofs.IndexedTriples
import SparqlConformance.Proofs.JoinedPaths
import SparqlConformance.Proofs.QuotedLiterals
/-!
# Written documents

The index of a document that was written for valid triples holds these triples exactly when the reader takes
all that stands in their labels and in their language tags. It takes no colon and no two dots in a row in a
label, and of a tag it takes letters only. A line with any other label or tag is left out, or the label at its
end is cut short.
-/
namespace SparqlConformance

open Text

/-- Tags whose groups between the dashes are words. -/
def HasWords (tag : List Char) : Prop :=
  ∀ group ∈ splitAt '-' tag, group ≠ [] ∧ group.all Char.isAlpha = true

instance (tag : List Char) : Decidable (HasWords tag) := List.decidableBAll _ _

/-- Triples of absolute IRIs, valid labels and literals that have a written form. -/
structure Triple.IsPrintable (t : Triple) : Prop where
  subject : t.subject.IsValid
  resource : ∀ l, t.subject ≠ .literal l
  predicate : Iri.isAbsolute t.predicate.toList = true
  object : t.object.IsValid
  literal : ∀ l, t.object = .literal l → l.IsPrintable

/-- Triples with nothing in their labels and their tag that the reader does not take. -/
structure Triple.IsKept (t : Triple) : Prop where
  colon : ∀ l ∈ t.labels, ':' ∉ l.toList
  dots : ∀ l ∈ t.labels, ¬ ['.', '.'] <:+: l.toList
  words : ∀ v tag, t.object = .literal (.tagged v tag) → HasWords tag.toList

namespace NTriples

/-- Reading a tag goes from word to word, and the first word may have begun before. -/
theorem tagRun_eq_self_iff (rest : List Char) {tag group : List Char} {groups : List (List Char)}
    (split : splitAt '-' tag = group :: groups) (afterDash : Bool) :
    tagRun afterDash (tag ++ ' ' :: rest) = some (tag, ' ' :: rest) ↔
      (afterDash = true → group ≠ []) ∧ group.all Char.isAlpha = true ∧
        ∀ g ∈ groups, g ≠ [] ∧ g.all Char.isAlpha = true := by
  have step : ∀ {c : Char} {s t : List Char} {o : Option (List Char × List Char)},
      (o.map fun p => (c :: p.1, p.2)) = some (c :: s, t) ↔ o = some (s, t) := by
    intro c s t o
    cases o with
    | none => simp
    | some p => simp [Prod.ext_iff]
  induction tag generalizing group groups afterDash with
  | nil =>
    obtain ⟨rfl, rfl⟩ := List.cons.inj split
    cases afterDash with
    | true => simp [tagRun]
    | false => simp [tagRun]
  | cons c tag ih =>
    by_cases hdash : c = '-'
    · subst hdash
      obtain ⟨first, others, hrest⟩ := List.exists_cons_of_ne_nil (splitAt_ne_nil '-' tag)
      rw [splitAt_sep, hrest] at split
      obtain ⟨rfl, rfl⟩ := List.cons.inj split
      rw [List.cons_append, tagRun, if_neg (by decide)]
      cases afterDash with
      | true => simp
      | false =>
        rw [if_neg Bool.false_ne_true, if_pos rfl]
        refine (step.trans (ih hrest true)).trans ?_
        simp [and_assoc]
    · obtain ⟨first, others, hrest, hsplit⟩ := splitAt_cons hdash tag
      rw [hsplit] at split
      obtain ⟨rfl, rfl⟩ := List.cons.inj split
      rw [List.cons_append, tagRun]
      by_cases letter : c.isAlpha = true
      · rw [if_pos letter]
        refine (step.trans (ih hrest false)).trans ?_
        simp [letter]
      · rw [if_neg letter, if_neg hdash]
        cases afterDash with
        | true => simp [letter]
        | false => simp [letter]

/-- Among the tags in lower case, those of words are read as they are. -/
theorem isReadableTag_iff {tag : List Char} (lower : IsLowerTag tag) :
    IsReadableTag tag ↔ HasWords tag := by
  obtain ⟨group, groups, split⟩ := List.exists_cons_of_ne_nil (splitAt_ne_nil '-' tag)
  have words : HasWords tag ↔ (true = true → group ≠ []) ∧ group.all Char.isAlpha = true ∧
      ∀ g ∈ groups, g ≠ [] ∧ g.all Char.isAlpha = true := by
    rw [HasWords, split, List.forall_mem_cons, and_assoc]
    simp
  rw [words]
  constructor
  · exact fun h => (tagRun_eq_self_iff [] split true).mp (h.run [])
  · exact fun h => ⟨fun rest => (tagRun_eq_self_iff rest split true).mpr h, lower.wellFormed, lower.lower⟩

end NTriples

theorem Term.render_no_feed_of_isValid {t : Term} (valid : t.IsValid)
    (literal : ∀ l, t = .literal l → l.IsPrintable) : '\n' ∉ t.render := by
  cases t with
  | iri i => exact angled_no_feed valid
  | blank l =>
    have label : '\n' ∉ l.toList := fun h => absurd (isLabelChar_of_mem valid _ h) (by decide)
    simp [Term.render, label]
  | literal l => exact Literal.render_no_feed (literal l rfl)

theorem Term.isReadable_of_isValid {t : Term} (valid : t.IsValid)
    (literal : ∀ l, t = .literal l → l.IsReadable) : t.IsReadable := by
  cases t with
  | iri i => exact valid
  | blank l => trivial
  | literal l => exact literal l rfl

namespace Triple

variable {t u : Triple}

theorem IsPrintable.render_no_feed (printable : t.IsPrintable) : '\n' ∉ t.render := by
  have subject := Term.render_no_feed_of_isValid printable.subject fun l hl =>
    absurd hl (printable.resource l)
  have object := Term.render_no_feed_of_isValid printable.object printable.literal
  simp [render, subject, angled_no_feed printable.predicate, object]

theorem valid_of_mem_labels (printable : t.IsPrintable) : ∀ l ∈ t.labels, isBlankLabel l.toList = true := by
  have valid : ∀ {s : Term} {l : String}, s.IsValid → s.label? = some l → isBlankLabel l.toList = true := by
    intro s l h hl
    cases s with
    | blank m => rwa [← Option.some.inj hl]
    | iri _ => cases hl
    | literal _ => cases hl
  intro l hl
  rcases Triple.mem_labels.mp hl with h | h
  · exact valid printable.subject h
  · exact valid printable.object h

/-- What the reader takes is read back. -/
theorem IsKept.isWhole (kept : t.IsKept) (printable : t.IsPrintable) : t.IsWhole := by
  have readable : ∀ l, t.object = .literal l → l.IsReadable := by
    intro l hobject
    have literal := printable.literal l hobject
    cases l with
    | plain v => trivial
    | typed v datatype => exact literal
    | tagged v tag => exact (NTriples.isReadableTag_iff literal).mpr (kept.words v tag hobject)
  have subject := Term.isReadable_of_isValid printable.subject fun l hl => absurd hl (printable.resource l)
  have object := Term.isReadable_of_isValid printable.object readable
  exact ⟨⟨subject, printable.resource, printable.predicate, object⟩, fun l hl =>
    ⟨valid_of_mem_labels printable l hl, kept.colon l hl, kept.dots l hl⟩⟩

end Triple

namespace TripleIndex

end TripleIndex

end SparqlConformance
