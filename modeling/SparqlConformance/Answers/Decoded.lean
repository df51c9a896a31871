import SparqlConformance.Answers.Error
import SparqlConformance.Answers.Solutions
import SparqlConformance.Rdf.Vocabulary
/-!
# Standard results

What documents in the standard results formats hold, and the terms that they are made of: what kind a
term is, and the parts that say more about it.
-/
namespace SparqlConformance

/-- What a results document holds. -/
inductive Decoded
  | solutions (b : Solutions)
  | truth (value : Bool)
  deriving DecidableEq

namespace Decoded

/-- The solutions over declared variables. -/
def ofRows (vars : List String) (rows : List (List Binding)) : Decoded :=
  .solutions ((Solutions.ofVariables vars).pushAll (rows.map Solution.ofPairs))

def ofOption : Option Decoded → Except AnswerError Decoded
  | some r => .ok r
  | none => .error .badDocument

end Decoded

/-- A variable that may be declared after others. -/
def declareNew? (vars : List String) (name : String) : Option (List String) :=
  if isVariableName name.toList && !vars.contains name then some (vars ++ [name]) else none

def iriTerm? (text : String) : Option Term :=
  if Iri.isAbsolute text.toList then some (.iri text) else none

def blankTerm? (label : String) : Option Term :=
  if isBlankLabel label.toList then some (.blank label) else none

/-- A literal of its parts. A language and a datatype exclude each other, but for the datatype of all
literals with a language. -/
def literalOf? (value : String) (language datatype : Option String) : Option Literal :=
  match language with
  | some tag =>
    let tag := tag.toList.map Char.toLower
    if datatype.all (· = Vocab.rdf "langString") && LanguageTag.isWellFormed tag then
      some (.tagged value (String.ofList tag))
    else none
  | none =>
    match datatype with
    | some d => some (.ofDatatype value d)
    | none => some (.plain value)

end SparqlConformance
