import SparqlConformance.Number.Fixed
import SparqlConformance.Runs.Report
/-!
# Summaries

A run as it is shown to people: a line for each suite, followed by what went wrong in it.
-/
namespace SparqlConformance

def TestRecord.summary (title : String) (r : TestRecord) : String := s!"  {title} {r.name}: {r.detail}"

namespace SuiteReport

def headline (r : SuiteReport) : String :=
  s!"{r.name}: {r.status} ({r.counts.text}) in {secondsText r.elapsed 2}s"

/-- A test whose engine crashed appears twice when it failed. -/
def summary (r : SuiteReport) : List String :=
  r.headline
    :: (r.records.filter fun t => t.outcome.isFailure).map (fun t => t.summary t.outcome.name)
    ++ r.crashes.map (TestRecord.summary "crash")

end SuiteReport

def RunReport.summary (r : RunReport) : List String :=
  r.suites.flatMap SuiteReport.summary
    ++ r.setupErrors.map (fun e => s!"error: {e.message}")
    ++ [s!"total: {r.totals.text}"]
    ++ if r.aborted then ["interrupted"] else []

end SparqlConformance
