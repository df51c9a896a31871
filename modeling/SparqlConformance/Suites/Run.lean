import SparqlConformance.Suites.Report
import SparqlConformance.Suites.Suite
import SparqlConformance.Tests.Execution
/-!
# Running suites

The tests of a suite are run one after the other until there are no more or the run is interrupted.
-/
namespace SparqlConformance

/-- What is known after some tests of a suite. -/
structure SuiteProgress where
  records : List TestRecord
  counts : Counts
  aborted : Bool
  deriving DecidableEq, Repr, Inhabited

namespace SuiteProgress

def start : SuiteProgress := ⟨[], .zero, false⟩

/-- A test that was interrupted is the last one. -/
def add (p : SuiteProgress) (r : TestRecord) : SuiteProgress :=
  ⟨p.records ++ [r], p.counts.record r.outcome, r.interrupted⟩

end SuiteProgress

namespace Suite

variable {σ : Type}

def testBed (s : Suite) (settings : Settings) : TestBed := ⟨settings, s.directory, s.environment⟩

def runTests (w : World σ) (b : TestBed) :
    SuiteProgress → List TestCase → StateM σ SuiteProgress
  | p, [] => pure p
  | p, t :: ts => do
    if ← w.isInterrupted then return { p with aborted := true }
    else
      let r ← b.run w t
      let p := p.add r
      if r.interrupted then return p else runTests w b p ts

def run (w : World σ) (settings : Settings) (s : Suite) : StateM σ SuiteReport := do
  let start ← w.now
  let p ← runTests w (s.testBed settings) .start s.tests
  let finish ← w.now
  return ⟨s.name, s.directory, s.description, p.records, p.counts, p.aborted, finish - start⟩

end Suite

end SparqlConformance
