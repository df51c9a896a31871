import SparqlConformance.Engine.Request
import SparqlConformance.Manifest.Error
import SparqlConformance.Rdf.TripleIndex
import SparqlConformance.World
/-!
# Conversion

RDF files are read through a tool that prints them as N-Triples.
-/
namespace SparqlConformance

/-- A tool that prints RDF files as N-Triples, and how it is called. -/
structure Converter where
  tool : Tool
  environment : Environment
  /-- In milliseconds. -/
  timeout : Nat
  deriving DecidableEq, Repr, Inhabited

namespace Converter

def command (c : Converter) (path : Path) : Command :=
  { c.tool.command [path.text] with environment := c.environment, timeout := some c.timeout }

end Converter

/-- Steps of a preparation, which a setup error ends. -/
abbrev Preparation (σ : Type) := ExceptT SetupError (StateM σ)

namespace Manifest

def launchProblem : LaunchError → SetupError
  | .notFound program => .unusableTool program "command not found"
  | .failed program reason => .unusableTool program reason

def failureReason (c : Completion) (path : Path) : String :=
  let output := trimText c.stderr
  s!"exited with code {c.exitCode} on {path.text}" ++ if output.isEmpty then "" else ": " ++ output

/-- The index of what the converter printed for a manifest. -/
def indexOf (converter : Converter) (path : Path) :
    Except LaunchError Completion → Except SetupError TripleIndex
  | .error e => .error (launchProblem e)
  | .ok c =>
    if c.succeeded then .ok (.ofNTriples path.text c.stdout)
    else .error (.unusableTool converter.tool.program (failureReason c path))

variable {σ : Type}

/-- Reads a manifest through the converter. -/
def index (w : World σ) (converter : Converter) (path : Path) : Preparation σ TripleIndex :=
  ExceptT.mk do return indexOf converter path (← w.call false (converter.command path))

end Manifest

end SparqlConformance
