import SparqlConformance.Runs.Preparation
import SparqlConformance.Runs.Report
import SparqlConformance.Suites.Run
/-!
# Runs

All suites of a list of targets are prepared, and then run one after the other until there are no more or
the run is interrupted. The temporary file of a suite is removed once the suite has run.
-/
namespace SparqlConformance.Run

variable {σ : Type}

/-- Runs prepared suites; those that an interrupt leaves out are given up. -/
def suites (w : World σ) (settings : Settings) :
    RunReport → List PreparedSuite → StateM σ RunReport
  | report, [] => pure report
  | report, p :: ps => do
    let r ← p.suite.run w settings
    p.release w
    let report := report.add r
    if r.aborted then
      PreparedSuite.releaseAll w ps
      return report
    else suites w settings report ps

/-- What prepared suites give when the run has not been interrupted before them. -/
def afterPreparation (w : World σ) (settings : Settings) (ps : List PreparedSuite) :
    StateM σ RunReport := do
  if ← w.isInterrupted then
    PreparedSuite.releaseAll w ps
    return { RunReport.empty with aborted := true }
  else suites w settings .empty ps

def all (w : World σ) (settings : Settings) (targets : List Target) : StateM σ RunReport := do
  let prepared ← prepareRun w settings targets
  let report ← afterPreparation w settings prepared.suites
  return { report with setupErrors := prepared.errors }

end SparqlConformance.Run
