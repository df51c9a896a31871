import SparqlConformance.Files.Path
import SparqlConformance.Tests.Record
/-!
# Reports of suites

What happened while the tests of one suite ran.
-/
namespace SparqlConformance

structure SuiteReport where
  name : String
  directory : Path
  description : Option String
  records : List TestRecord
  counts : Counts
  /-- The run was interrupted during this suite. -/
  aborted : Bool
  /-- In microseconds. -/
  elapsed : Nat
  deriving DecidableEq, Repr, Inhabited

namespace SuiteReport

def outcomes (r : SuiteReport) : List Outcome := r.records.map TestRecord.outcome

def hasFailed (r : SuiteReport) : Bool := r.counts.hasFailures

def status (r : SuiteReport) : String := if r.hasFailed then "fail" else "pass"

/-- The tests whose engine was ended by a signal. -/
def crashes (r : SuiteReport) : List TestRecord := r.records.filter TestRecord.isCrash

end SuiteReport

end SparqlConformance
