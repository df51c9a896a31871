/-!
# Outcomes

What a test is expected to do, what it did, and what that makes of it. A negative test has to be
rejected by the engine; a known failure may also pass.
-/
namespace SparqlConformance

inductive Expectation
  | pass
  | fail
  | xfail
  | skip
  deriving DecidableEq, Repr, Inhabited

inductive Verdict
  | passed
  | failed
  deriving DecidableEq, Repr, Inhabited

inductive Outcome
  | passed
  | failed
  | skipped
  | xfailed
  | uxpassed
  deriving DecidableEq, Repr, Inhabited

namespace Outcome

/-- The outcome of a test that ran, or of one that did not. -/
def judge : Expectation → Option Verdict → Outcome
  | .skip, _ | _, none => .skipped
  | .pass, some .passed | .xfail, some .passed => .passed
  | .pass, some .failed => .failed
  | .fail, some .failed | .xfail, some .failed => .xfailed
  | .fail, some .passed => .uxpassed

/-- Outcomes that make a suite fail. -/
def isFailure : Outcome → Bool
  | failed | uxpassed => true
  | passed | skipped | xfailed => false

def name : Outcome → String
  | passed => "passed"
  | failed => "failed"
  | skipped => "skipped"
  | xfailed => "xfailed"
  | uxpassed => "uxpassed"

end Outcome

/-- Numbers of tests by outcome. -/
structure Counts where
  passed : Nat
  failed : Nat
  skipped : Nat
  xfailed : Nat
  uxpassed : Nat
  deriving DecidableEq, Repr, Inhabited

namespace Counts

def zero : Counts := ⟨0, 0, 0, 0, 0⟩

def record (c : Counts) : Outcome → Counts
  | .passed => { c with passed := c.passed + 1 }
  | .failed => { c with failed := c.failed + 1 }
  | .skipped => { c with skipped := c.skipped + 1 }
  | .xfailed => { c with xfailed := c.xfailed + 1 }
  | .uxpassed => { c with uxpassed := c.uxpassed + 1 }

def tally (outcomes : List Outcome) : Counts := outcomes.foldl record zero

def add (c d : Counts) : Counts :=
  ⟨c.passed + d.passed, c.failed + d.failed, c.skipped + d.skipped, c.xfailed + d.xfailed,
    c.uxpassed + d.uxpassed⟩

def total (c : Counts) : Nat := c.passed + c.failed + c.skipped + c.xfailed + c.uxpassed

/-- The tests that make a suite fail. -/
def failures (c : Counts) : Nat := c.failed + c.uxpassed

def hasFailures (c : Counts) : Bool := decide (0 < c.failures)

def text (c : Counts) : String :=
  s!"{c.total} tests: {c.passed} passed, {c.failed} failed, {c.skipped} skipped, " ++
    s!"{c.xfailed} xfailed, {c.uxpassed} uxpassed"

end Counts

end SparqlConformance
