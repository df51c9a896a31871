import SparqlConformance.CommandLine.Order
import SparqlConformance.CommandLine.Summary
import SparqlConformance.Plans.Plan
import SparqlConformance.Reports.Earl
import SparqlConformance.Reports.JUnit
import SparqlConformance.Runs.Run
/-!
# Sessions

What a command line does, prints, and ends with. A command that can not be understood ends with 2, one
that fails with 1, and a run ends as its report says.
-/
namespace SparqlConformance.CommandLine

/-- What a command prints and its exit code. -/
structure Response where
  output : String
  complaint : String
  exitCode : Nat
  deriving DecidableEq, Repr, Inhabited

/-- Why a command failed, and what was behind it. -/
inductive Failure
  | noTarget (path : Path)
  | notLoaded (e : SetupError)
  | notOpened (directory : Path)
  | noTestType (kind : String)
  | notListed (directory : Path) (e : SetupError)
  | notWritten (path : Path) (reason : String)
  deriving DecidableEq, Repr, Inhabited

namespace Failure

def message : Failure → String
  | noTarget path => s!"{path.text} is neither a directory nor a file"
  | notLoaded _ => "failed to load the tests"
  | notOpened directory => s!"failed to open {directory.text}"
  | noTestType kind => s!"invalid test type {kind}"
  | notListed directory _ => s!"failed to list the queries of {directory.text}"
  | notWritten path _ => s!"failed to write {path.text}"

def cause? : Failure → Option String
  | notLoaded e | notListed _ e => some e.message
  | notWritten _ reason => some reason
  | _ => none

def text (f : Failure) : String :=
  s!"Error: {f.message}\n"
    ++ String.join (f.cause?.toList.map fun cause => s!"\nCaused by:\n    {cause}\n")

end Failure

def lineText (ls : List String) : String := String.join (ls.map (· ++ "\n"))

/-- The targets of paths; each has to be there. -/
def targets (files : FileView) (paths : List Path) : Except Failure (List Target) :=
  paths.mapM fun path =>
    if files.isDirectory path then .ok (.directory path)
    else if files.isFile path then .ok (.manifest path)
    else .error (.noTarget path)

section

variable {σ : Type} (w : World σ)

/-- The response of a command that prints something before it fails. -/
def responseOf (output : String) (exitCode : Nat) : Except Failure Unit → Response
  | .ok _ => ⟨output, "", exitCode⟩
  | .error f => ⟨output, f.text, 1⟩

def writeReport (path : Path) (content : String) : ExceptT Failure (StateM σ) Unit :=
  ExceptT.mk do return (← w.write path content).mapError (.notWritten path)

def writeReports (settings : Settings) (report : RunReport) (junit earl : Option Path) :
    ExceptT Failure (StateM σ) Unit := do
  match junit with
  | some path => writeReport w path report.junit
  | none => pure ()
  match earl with
  | some path =>
    writeReport w path (report.earl settings.engine.tool.program (w.date (← get)))
  | none => pure ()

def run (settings : Settings) (targets : List Target) (junit earl : Option Path) :
    StateM σ Response := do
  let report ← Run.all w settings targets
  let written ← (writeReports w settings report junit earl).run
  return responseOf (lineText report.summary) report.exitCode written

def testLine (suite : Suite) (t : TestCase) : String := s!"{suite.name}\t{t.uri}\t{t.text}"

/-- Lists the tests of all suites that can be prepared. -/
def list (settings : Settings) (targets : List Target) : StateM σ Response := do
  let prepared ← prepareRun w.undisturbed settings targets
  PreparedSuite.releaseAll w prepared.suites
  let lines := prepared.suites.flatMap fun p => p.suite.tests.map (testLine p.suite)
  return responseOf (lineText lines) 0
    (prepared.errors.head?.elim (.ok ()) fun e => .error (.notLoaded e))

end

/-- The plan of a directory; the suite is called like the directory unless it has a name of its own. -/
def planText (files : FileView) (directory : Path) (suite kind description programs : Option String)
    (data : List Path) : Except Failure String := do
  let suite ← match suite with
    | some name => pure name
    | none =>
      match files.canonical? directory with
      | some place => pure ((place.fileName?.map String.ofList).getD "")
      | none => throw (.notOpened directory)
  let kind ← match kind with
    | some k => if isIri k then pure (some (TestKind.ofIri k)) else throw (.noTestType k)
    | none => pure none
  let request : PlanRequest :=
    { PlanRequest.ofSuite suite with kind, description, programs, data }
  match request.plan files directory with
  | .ok triples => return Triple.document triples
  | .error e => throw (.notListed directory e)

def usage : String :=
  lineText ["Conformance harness for SPARQL query processors.", "",
    "Usage: sparqlcheck [OPTIONS] run|list-tests|plan ..."]

/-- Does what an order says. -/
def follow {σ : Type} (w : World σ) (order : Order) : StateM σ Response := do
  let files ← w.view
  match order with
  | .run paths settings junit earl =>
    match targets files paths with
    | .ok targets => run w settings targets junit earl
    | .error f => return responseOf "" 1 (.error f)
  | .list paths settings =>
    match targets files paths with
    | .ok targets => list w settings targets
    | .error f => return responseOf "" 1 (.error f)
  | .plan directory suite kind description programs data =>
    match planText files directory suite kind description programs data with
    | .ok text => return responseOf text 0 (.ok ())
    | .error f => return responseOf "" 1 (.error f)
  | .help => return ⟨usage, "", 0⟩
  | .version => return ⟨"sparqlcheck 0.1.0\n", "", 0⟩

/-- A whole session with given arguments and variables of the environment. -/
def session {σ : Type} (w : World σ) (vars : List (String × String)) (args : List String) :
    StateM σ Response :=
  match Order.ofArguments vars args with
  | .ok order => follow w order
  | .error e => return ⟨"", s!"error: {e.message}\n", 2⟩

end SparqlConformance.CommandLine
