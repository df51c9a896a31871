import SparqlConformance.Proofs.QuotedLiterals
/-!
# Printed values

The forms in which a value is printed for people, and what each of them is read as. Two forms are not read as
what they were printed for: a literal whose tag has a digit is no literal to the reader, and a label
without brackets ends for it where white space begins, which may stand in labels.
-/
namespace SparqlConformance.Simple

open Text

/-- The functions that stand for a datatype. -/
inductive Shorthand
  | integer
  | decimal
  | double
  | float
  | boolean
  | datetime
  | dateTime
  | date
  deriving DecidableEq

namespace Shorthand

def word : Shorthand → List Char
  | integer => "integer".toList
  | decimal => "decimal".toList
  | double => "double".toList
  | float => "float".toList
  | boolean => "boolean".toList
  | datetime => "datetime".toList
  | dateTime => "dateTime".toList
  | date => "date".toList

def datatype : Shorthand → String
  | integer => "http://www.w3.org/2001/XMLSchema#integer"
  | decimal => "http://www.w3.org/2001/XMLSchema#decimal"
  | double => "http://www.w3.org/2001/XMLSchema#double"
  | float => "http://www.w3.org/2001/XMLSchema#float"
  | boolean => "http://www.w3.org/2001/XMLSchema#boolean"
  | datetime | dateTime => "http://www.w3.org/2001/XMLSchema#dateTime"
  | date => "http://www.w3.org/2001/XMLSchema#date"

end Shorthand

/-- The forms of values: words for none, IRIs with or without `uri`, labels with or without `blank` and
with brackets around them, literals with or without `string`, and the shorthands. -/
inductive Form
  | null
  | undef
  | iri (worded : Bool) (text : String)
  | label (worded : Bool) (label : String)
  | enclosed (label : String)
  | literal (worded : Bool) (l : Literal)
  | typed (function : Shorthand) (lexical : String)
  deriving DecidableEq

namespace Form

def text : Form → List Char
  | null => "NULL".toList
  | undef => "UNDEF".toList
  | iri worded i => (if worded then "uri<" else "<").toList ++ (i.toList ++ ['>'])
  | label worded l => (if worded then "blank _:" else "_:").toList ++ l.toList
  | enclosed l => "blank(".toList ++ (l.toList ++ [')'])
  | literal worded l => if worded then "string(".toList ++ (l.render ++ [')']) else l.render
  | typed f x => f.word ++ '(' :: (x.toList ++ [')'])

/-- What a form stands for. -/
def value? : Form → Option Term
  | null | undef => none
  | iri _ i => some (.iri i)
  | label _ l | enclosed l => some (.blank l)
  | literal _ l => some (.literal l)
  | typed f x => some (.literal (.typed x f.datatype))

/-- Whether a value can be printed in a form. -/
def IsPrintable : Form → Prop
  | null | undef => True
  | iri _ i => Iri.isAbsolute i.toList = true
  | label _ l | enclosed l => isBlankLabel l.toList = true
  | literal _ l => l.IsPrintable
  | typed _ x => ')' ∉ x.toList ∧ '\n' ∉ x.toList

instance : (form : Form) → Decidable form.IsPrintable
  | null | undef => instDecidableTrue
  | iri _ i => inferInstanceAs (Decidable (Iri.isAbsolute i.toList = true))
  | label _ l | enclosed l => inferInstanceAs (Decidable (isBlankLabel l.toList = true))
  | literal _ l => inferInstanceAs (Decidable l.IsPrintable)
  | typed _ x => inferInstanceAs (Decidable (')' ∉ x.toList ∧ '\n' ∉ x.toList))

/-- No digit stands in a tag, and no white space in a label without brackets. -/
def IsKept : Form → Prop
  | label _ l => ∀ c ∈ l.toList, isSpace c = false
  | literal _ l => l.HasPlainTag
  | null | undef | iri _ _ | enclosed _ | typed _ _ => True

instance : (form : Form) → Decidable form.IsKept
  | label _ l => (List.decidableBAll _ _ : Decidable (∀ c ∈ l.toList, isSpace c = false))
  | literal _ l => inferInstanceAs (Decidable l.HasPlainTag)
  | null | undef | iri _ _ | enclosed _ | typed _ _ => instDecidableTrue

end Form

/-- What follows a value in a row: a comma and more, or nothing. -/
def EndsCell (rest : List Char) : Prop := ∀ c, rest.head? = some c → c = ','

theorem EndsCell.trimStart {rest : List Char} (ends : EndsCell rest) : Text.trimStart rest = rest := by
  cases rest with
  | nil => rfl
  | cons c rest =>
    obtain rfl := ends c rfl
    rfl

end SparqlConformance.Simple
