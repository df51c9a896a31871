import SparqlConformance.Programs.Search
import SparqlConformance.Suites.Suite
/-!
# Preparation

All suites of a run are loaded before any of them runs. A directory is asked for its suites through the
build tool, which also prints the manifest of each; these manifests are kept in temporary files beside the
tests for as long as their suites may run.
-/
namespace SparqlConformance

/-- Where suites come from. -/
inductive Target
  | directory (path : Path)
  | manifest (path : Path)
  deriving DecidableEq, Repr, Inhabited

structure PreparedSuite where
  suite : Suite
  /-- The temporary file of a printed manifest. -/
  plan : Option Path
  deriving DecidableEq, Repr, Inhabited

variable {σ : Type}

namespace PreparedSuite

/-- Gives up the temporary file of a suite. -/
def release (w : World σ) (p : PreparedSuite) : StateM σ Unit :=
  match p.plan with
  | some plan => w.remove plan
  | none => pure ()

def releaseAll (w : World σ) : List PreparedSuite → StateM σ Unit
  | [] => pure ()
  | p :: ps => do
    p.release w
    releaseAll w ps

end PreparedSuite

namespace Target

/-- The name of the suite of a manifest. -/
def suiteName (manifest : Path) : String := manifest.fileStem?.getD manifest.text

section build

variable (w : World σ) (settings : Settings) (directory : Path)

def buildCommand (c : Command) : Command :=
  { c with workingDirectory := some directory, timeout := some settings.timeout }

/-- What the build tool printed, if it did its work. -/
def builtText (c : Command) (interrupted : Bool) :
    Except LaunchError Completion → Except SetupError String
  | .error (.notFound _) => .error (.buildFailed c.text directory "command not found")
  | .error e => .error (.buildFailed c.text directory e.message)
  | .ok output =>
    if interrupted then .error .interrupted
    else if output.succeeded then .ok output.stdout
    else if output.timedOut then .error (.buildFailed c.text directory "timed out")
    else .error (.buildFailed c.text directory
      s!"exit code {output.exitCode}: {trimText output.stderr}")

/-- Calls the build tool in a directory. -/
def built (c : Command) : Preparation σ String :=
  ExceptT.mk do
    let answer ← w.call true (buildCommand settings directory c)
    let interrupted ← match answer with
      | .ok output => if output.interrupted then pure true else w.isInterrupted
      | .error _ => pure false
    return builtText directory c interrupted answer

/-- The names of the suites of a directory. -/
def suiteNames : Preparation σ (List String) := do
  let listed ← built w settings directory settings.build.listCommand
  return (Text.words listed.toList).map String.ofList

def planFile (name : String) : TemporaryName := ⟨s!".sparqlcheck-{name}-", ".ttl"⟩

/-- Loads a suite of a directory. Its temporary file does not outlive a failure. -/
def prepareNamed (name : String) : Preparation σ PreparedSuite := do
  let text ← built w settings directory (settings.build.planCommand name)
  match ← w.createTemporary (some directory) (planFile name) (Utf8.encode text.toList) with
  | .error reason => throw (.inaccessible reason)
  | .ok plan =>
    ExceptT.mk do
      match ← (Suite.load w settings name plan).run with
      | .ok suite => return .ok ⟨suite, some plan⟩
      | .error e =>
        w.remove plan
        return .error e

/-- Loads all suites of a directory, or none. -/
def prepareAll : List PreparedSuite → List String → Preparation σ (List PreparedSuite)
  | done, [] => return done
  | done, name :: names => do
    let next ← ExceptT.mk do
      match ← (prepareNamed w settings directory name).run with
      | .ok p => return .ok p
      | .error e =>
        PreparedSuite.releaseAll w done
        return .error e
    prepareAll (done ++ [next]) names

def prepareDirectory : Preparation σ (List PreparedSuite) := do
  prepareAll w settings directory [] (← suiteNames w settings directory)

end build

def prepare (w : World σ) (settings : Settings) : Target → Preparation σ (List PreparedSuite)
  | directory path => prepareDirectory w settings path
  | manifest path => do return [⟨← Suite.load w settings (suiteName path) path, none⟩]

/-- What targets gave so far, and whether the run was interrupted meanwhile. -/
structure Prepared where
  suites : List PreparedSuite
  errors : List SetupError
  interrupted : Bool
  deriving DecidableEq, Repr, Inhabited

/-- Prepares targets until the run is interrupted. -/
def prepareTargets (w : World σ) (settings : Settings) : Prepared → List Target → StateM σ Prepared
  | p, [] => pure p
  | p, t :: ts => do
    if ← w.isInterrupted then return { p with interrupted := true }
    else match ← (t.prepare w settings).run with
      | .ok suites => prepareTargets w settings { p with suites := p.suites ++ suites } ts
      | .error .interrupted => return { p with interrupted := true }
      | .error e => prepareTargets w settings { p with errors := p.errors ++ [e] } ts

end Target

/-- The problem with a program that can not be found. -/
def missingProgram? (w : World σ) (files : FileView) (environment : Environment)
    (program : String) : Option SetupError :=
  match findProgram? files w.searchPath environment program with
  | some _ => none
  | none => some (.unusableTool program "command not found")

/-- Keeps the suites whose engine can be found; the others are given up. -/
def keepRunnable (w : World σ) (engine : String) (errors : List SetupError) :
    List PreparedSuite → StateM σ Target.Prepared
  | [] => return ⟨[], errors, false⟩
  | p :: ps => do
    match missingProgram? w (← w.view) p.suite.environment engine with
    | some e =>
      p.release w
      keepRunnable w engine (errors ++ [e]) ps
    | none =>
      let rest ← keepRunnable w engine errors ps
      return { rest with suites := p :: rest.suites }

/-- Loads every suite before anything runs, and looks for the engine unless nothing is going to run. -/
def prepareRun (w : World σ) (settings : Settings) (targets : List Target) :
    StateM σ Target.Prepared := do
  match missingProgram? w (← w.view) .inherited settings.converter.program with
  | some e => return ⟨[], [e], false⟩
  | none =>
    let p ← Target.prepareTargets w settings ⟨[], [], false⟩ targets
    if settings.dryRun || p.interrupted then return p
    else keepRunnable w settings.engine.tool.program p.errors p.suites

end SparqlConformance
