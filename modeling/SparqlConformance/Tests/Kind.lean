import SparqlConformance.Rdf.Term
import SparqlConformance.Rdf.Vocabulary
import SparqlConformance.Tests.Outcome
import SparqlConformance.Text.Lines
/-!
# Test kinds

The types of manifest entries, and how tests of each type are run: whether they are run at all, what
is expected of them, and in which language their query is written.
-/
namespace SparqlConformance

/-- The variants of the query language that an engine is asked for. -/
inductive Language
  | sparql
  | sparql11
  | sparql11Update
  deriving DecidableEq, Repr, Inhabited

def Language.name : Language → String
  | .sparql => "sparql"
  | .sparql11 => "sparql11"
  | .sparql11Update => "sparql11-update"

inductive TestKind
  | positiveSyntax
  | positiveSyntax11
  | negativeSyntax
  | negativeSyntax11
  | positiveUpdateSyntax11
  | negativeUpdateSyntax11
  | badSyntax
  | syntaxOnly
  | queryEvaluation
  | csvResultFormat
  | knownFailure
  | warning
  | updateEvaluation
  | protocol
  | serviceDescription
  | graphStoreProtocol
  | unknown (iri : String)
  deriving DecidableEq, Repr, Inhabited

/-- How tests of a kind are run. -/
structure Behavior where
  execute : Bool
  expected : Expectation
  language : Language
  deriving DecidableEq, Repr, Inhabited

namespace TestKind

def iri : TestKind → String
  | positiveSyntax => Vocab.manifest "PositiveSyntaxTest"
  | positiveSyntax11 => Vocab.manifest "PositiveSyntaxTest11"
  | negativeSyntax => Vocab.manifest "NegativeSyntaxTest"
  | negativeSyntax11 => Vocab.manifest "NegativeSyntaxTest11"
  | positiveUpdateSyntax11 => Vocab.manifest "PositiveUpdateSyntaxTest11"
  | negativeUpdateSyntax11 => Vocab.manifest "NegativeUpdateSyntaxTest11"
  | badSyntax => Vocab.manifestExtra "TestBadSyntax"
  | syntaxOnly => Vocab.manifestExtra "TestSyntax"
  | queryEvaluation => Vocab.manifest "QueryEvaluationTest"
  | csvResultFormat => Vocab.manifest "CSVResultFormatTest"
  | knownFailure => Vocab.plan "XFailTest"
  | warning => Vocab.plan "WarningTest"
  | updateEvaluation => Vocab.manifest "UpdateEvaluationTest"
  | protocol => Vocab.manifest "ProtocolTest"
  | serviceDescription => Vocab.manifest "ServiceDescriptionTest"
  | graphStoreProtocol => Vocab.manifest "GraphStoreProtocolTest"
  | unknown iri => iri

/-- The kinds that have a name of their own. -/
def known : List TestKind :=
  [positiveSyntax, positiveSyntax11, negativeSyntax, negativeSyntax11, positiveUpdateSyntax11,
    negativeUpdateSyntax11, badSyntax, syntaxOnly, queryEvaluation, csvResultFormat, knownFailure,
    warning, updateEvaluation, protocol, serviceDescription, graphStoreProtocol]

def isUnknown : TestKind → Bool
  | unknown _ => true
  | _ => false

def ofIri (iri : String) : TestKind := (known.find? fun k => k.iri == iri).getD (.unknown iri)

/-- The kind of an entry with the given types: the first known one, else the first one; an entry
without types is a query evaluation test. -/
def ofTypes (types : List String) : TestKind :=
  let kinds := types.map ofIri
  (kinds.find? fun k => !k.isUnknown).getD (kinds.head?.getD queryEvaluation)

/-- Kinds that are never run. -/
def shouldSkip : TestKind → Bool
  | updateEvaluation | protocol | serviceDescription | graphStoreProtocol => true
  | _ => false

/-- Kinds whose query is only parsed. -/
def isSyntax : TestKind → Bool
  | positiveSyntax | positiveSyntax11 | negativeSyntax | negativeSyntax11
  | positiveUpdateSyntax11 | negativeUpdateSyntax11 | badSyntax | syntaxOnly => true
  | _ => false

def behavior : TestKind → Behavior
  | positiveSyntax11 | csvResultFormat => ⟨true, .pass, .sparql11⟩
  | negativeSyntax | badSyntax => ⟨true, .fail, .sparql⟩
  | negativeSyntax11 => ⟨true, .fail, .sparql11⟩
  | positiveUpdateSyntax11 => ⟨true, .pass, .sparql11Update⟩
  | negativeUpdateSyntax11 => ⟨true, .fail, .sparql11Update⟩
  | knownFailure => ⟨true, .xfail, .sparql⟩
  | updateEvaluation | protocol | serviceDescription | graphStoreProtocol =>
    ⟨false, .skip, .sparql11⟩
  | positiveSyntax | syntaxOnly | queryEvaluation | warning | unknown _ => ⟨true, .pass, .sparql⟩

def text (k : TestKind) : String := (Term.iri k.iri).text

/-- The kind of the tests of a planned suite. A known kind is kept; else the name of the suite decides,
and the fallback where it says nothing. -/
def guess (kind : Option TestKind) (suite : String) (fallback : TestKind) : TestKind :=
  match kind.filter fun k => !k.isUnknown with
  | some k => k
  | none =>
    let name := (lowerAscii suite).toList
    let mentions (word : String) : Bool := (Text.cutAt word.toList name).isSome
    if mentions "negative" || mentions "bad" then negativeSyntax
    else if mentions "warning" then warning
    else if mentions "syntax" then positiveSyntax
    else if mentions "xfail" then knownFailure
    else fallback

end TestKind

end SparqlConformance
