import SparqlConformance.Rdf.Iri
import SparqlConformance.Rdf.Term
import SparqlConformance.Rdf.Vocabulary
import SparqlConformance.Runs.Report
/-!
# EARL reports

A run as assertions about the engine, one for each record whose test has an IRI. An assertion and its
result are blank nodes named by the place of the record.
-/
namespace SparqlConformance.Earl

open Vocab (earl rdf)

def engineNode : Term := .blank "engine"

def assertionNode (n : Nat) : Term := .blank ("assertion" ++ toString n)

def resultNode (n : Nat) : Term := .blank ("result" ++ toString n)

def outcomeIri : Outcome → String
  | .passed | .xfailed => earl "passed"
  | .failed | .uxpassed => earl "failed"
  | .skipped => earl "untested"

def dateTime (date : String) : Term := .literal (.ofDatatype date (Vocab.xsd "dateTime"))

def assertion (date : String) (n : Nat) (r : TestRecord) : List Triple :=
  let a := assertionNode n
  let result := resultNode n
  [⟨a, rdf "type", .iri (earl "Assertion")⟩,
    ⟨a, earl "assertedBy", engineNode⟩,
    ⟨a, earl "subject", engineNode⟩,
    ⟨a, earl "test", .iri r.test⟩,
    ⟨a, earl "result", result⟩,
    ⟨result, rdf "type", .iri (earl "TestResult")⟩,
    ⟨result, earl "outcome", .iri (outcomeIri r.outcome)⟩,
    ⟨result, Vocab.dcterms "date", dateTime date⟩]

/-- The assertions of records, the first of which has a given number. -/
def assertions (date : String) : Nat → List TestRecord → List Triple
  | _, [] => []
  | n, r :: rs => assertion date n r ++ assertions date (n + 1) rs

def engineTriples (engine : String) : List Triple :=
  [⟨engineNode, rdf "type", .iri (earl "Software")⟩,
    ⟨engineNode, Vocab.doap "name", .plain engine⟩]

/-- The records that have assertions. -/
def named (r : RunReport) : List TestRecord := r.records.filter fun t => isIri t.test

end Earl

/-- The triples of a report about the engine of a name. -/
def RunReport.earlTriples (r : RunReport) (engine date : String) : List Triple :=
  Earl.engineTriples engine ++ Earl.assertions date 0 (Earl.named r)

def RunReport.earl (r : RunReport) (engine date : String) : String :=
  Triple.document (r.earlTriples engine date)

end SparqlConformance
