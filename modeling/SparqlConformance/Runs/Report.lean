import SparqlConformance.Manifest.Error
import SparqlConformance.Suites.Report
/-!
# Reports of runs

What happened in a whole run: the reports of its suites, and what kept other suites from running.
-/
namespace SparqlConformance

structure RunReport where
  suites : List SuiteReport
  totals : Counts
  aborted : Bool
  setupErrors : List SetupError
  deriving DecidableEq, Repr, Inhabited

namespace RunReport

def empty : RunReport := ⟨[], .zero, false, []⟩

/-- Adds the report of the next suite. A suite that was interrupted is the end of the run. -/
def add (r : RunReport) (suite : SuiteReport) : RunReport where
  suites := r.suites ++ [suite]
  totals := r.totals.add suite.counts
  aborted := suite.aborted
  setupErrors := r.setupErrors

def records (r : RunReport) : List TestRecord := r.suites.flatMap SuiteReport.records

/-- Nothing is left unsaid by a run that ends with 0: it was not interrupted, every suite could be
prepared, and no test failed. -/
def exitCode (r : RunReport) : Nat :=
  if r.aborted then 130
  else if r.totals.hasFailures || !r.setupErrors.isEmpty then 1
  else 0

end RunReport

end SparqlConformance
