import SparqlConformance.Tests.Outcome
import SparqlConformance.Tests.Signal
/-!
# Test records

What is kept of the execution of one test.
-/
namespace SparqlConformance

structure TestRecord where
  test : String
  name : String
  outcome : Outcome
  exitCode : Option Int
  /-- The signal that ended the engine. -/
  signal : Option Signal
  timedOut : Bool
  interrupted : Bool
  /-- The last lines that the engine printed. -/
  output : String
  detail : String
  /-- In microseconds. -/
  elapsed : Nat
  deriving DecidableEq, Repr, Inhabited

namespace TestRecord

def skipped (test name detail : String) : TestRecord where
  test
  name
  outcome := .skipped
  exitCode := none
  signal := none
  timedOut := false
  interrupted := false
  output := ""
  detail
  elapsed := 0

/-- The engine was ended by a signal, and not because of an interrupt. -/
def isCrash (r : TestRecord) : Bool := r.signal.isSome && !r.interrupted

end TestRecord

end SparqlConformance
