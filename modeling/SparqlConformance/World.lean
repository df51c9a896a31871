import SparqlConformance.Files.View
import SparqlConformance.Programs.Command
/-!
# Worlds

What a run meets outside of itself: files, other programs, the clock, and a person who may interrupt it.
A world answers from a state that its answers change; a run is a function of a world and a state. Nothing
is assumed about the answers.
-/
namespace SparqlConformance

/-- Names of temporary files: something fresh stands between a beginning and an end. -/
structure TemporaryName where
  start : String
  finish : String
  deriving DecidableEq, Repr

structure World (σ : Type) where
  files : σ → FileView
  /-- The search path that programs inherit. -/
  searchPath : Option String
  /-- Calls a program and waits for its end. A watched call ends early when the run is interrupted. -/
  call : (watched : Bool) → Command → StateM σ (Except LaunchError Completion)
  isInterrupted : StateM σ Bool
  /-- In microseconds. -/
  time : σ → Nat
  /-- The date and time as XML Schema writes them. -/
  date : σ → String
  /-- Creates a file in a directory, or where temporary files usually are. -/
  createTemporary : Option Path → TemporaryName → List UInt8 → StateM σ (Except String Path)
  remove : Path → StateM σ Unit
  write : Path → String → StateM σ (Except String Unit)
  /-- No chain of different files is longer. -/
  fileBound : σ → Nat

namespace World

variable {σ : Type}

/-- The same world for a run that can not be interrupted. -/
def undisturbed (w : World σ) : World σ :=
  { w with call := fun _ => w.call false, isInterrupted := pure false }

def view (w : World σ) : StateM σ FileView := do return w.files (← get)

def now (w : World σ) : StateM σ Nat := do return w.time (← get)

end World

end SparqlConformance
