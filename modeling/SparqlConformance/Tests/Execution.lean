import SparqlConformance.Answers.Judgement
import SparqlConformance.Answers.Reading
import SparqlConformance.Tests.Case
import SparqlConformance.Tests.Record
/-!
# Execution

How one test is run. Syntax tests only ask the engine whether it accepts a query, warning tests whether it
accepts it with or without a warning, and all others compare what the engine answers with what is expected.
An engine that is ended by a signal has failed, whatever was expected of it.
-/
namespace SparqlConformance

/-- What a check of a test found out. -/
structure Finding where
  verdict : Verdict
  /-- What the engine left behind, if it could be called. -/
  completion : Option Completion
  detail : String
  deriving DecidableEq, Repr, Inhabited

namespace Finding

def failure (completion : Option Completion) (detail : String) : Finding :=
  ⟨.failed, completion, detail⟩

/-- The finding of a check that only looks at the exit code. -/
def ofExit (c : Completion) (accepted : List Int) (timeout : Nat) : Finding :=
  if c.timedOut then failure (some c) s!"timed out after {timeout / 1000}s"
  else if accepted.contains c.exitCode && !c.interrupted then ⟨.passed, some c, ""⟩
  else failure (some c) s!"engine exited with code {c.exitCode}"

def ofComparison (c : Completion) : Comparison → Finding
  | .same => ⟨.passed, some c, ""⟩
  | .differ explanation => failure (some c) explanation

def launchProblem : LaunchError → Finding
  | .notFound program => failure none s!"engine {program} not found"
  | e => failure none e.message

end Finding

/-- The exit code by which shells tell of an interrupt. -/
def interruptedExit : Int := 130

namespace TestRecord

def ofCheck (t : TestCase) (f : Finding) (elapsed : Nat) : TestRecord where
  test := t.uri
  name := t.name
  outcome := .judge t.expected (some f.verdict)
  exitCode := none
  signal := none
  timedOut := false
  interrupted := false
  output := ""
  detail := f.detail
  elapsed

/-- Adds what the engine left behind. An interrupt or a signal decides the outcome. -/
def withCompletion (r : TestRecord) (c : Completion) (outputLines : Nat) (interrupted : Bool) :
    TestRecord :=
  let signal := if c.timedOut then none else Signal.ofExitCode? c.exitCode
  let interrupted := interrupted || c.exitCode == interruptedExit || signal.any Signal.isInterrupt
  let r := { r with
    exitCode := some c.exitCode, signal, timedOut := c.timedOut, interrupted
    output := c.tail outputLines, elapsed := c.elapsed }
  if interrupted then { r with outcome := .failed, detail := "interrupted" }
  else match signal with
    | some s => { r with outcome := .failed, detail := s!"engine killed by {s.text}" }
    | none => r

end TestRecord

/-- Where and how tests are run. -/
structure TestBed where
  settings : Settings
  directory : Path
  environment : Environment
  deriving DecidableEq, Repr, Inhabited

namespace TestBed

def command (b : TestBed) (r : EngineRequest) : Command :=
  { b.settings.engine.command r with
    workingDirectory := some b.directory, environment := b.environment
    timeout := some b.settings.timeout }

def converter (b : TestBed) : Converter := ⟨b.settings.converter, b.environment, b.settings.timeout⟩

def judge (b : TestBed) : Judge :=
  ⟨b.settings.compareTool, b.settings.diffTool, b.environment, b.settings.timeout⟩

/-- The format that the engine is asked for. -/
def format (b : TestBed) (t : TestCase) (query : QueryOutline) : OutputFormat :=
  let extension := (t.result.bind Path.extension?).map lowerAscii
  if t.kind = .csvResultFormat ∨ extension = some "csv" then .csv
  else if extension = some "tsv" then .tsv
  else if query.form.returnsGraph then .ntriples
  else b.settings.format

variable {σ : Type} (w : World σ) (b : TestBed)

/-- Calls the engine, and goes on with what it left behind. -/
def afterEngine (r : EngineRequest) (next : Completion → StateM σ Finding) : StateM σ Finding := do
  match ← w.call true (b.command r) with
  | .error e => return .launchProblem e
  | .ok c => next c

def checkSyntax (t : TestCase) (query : Path) : StateM σ Finding :=
  b.afterEngine w (.parsing query t.language none) fun c =>
    return .ofExit c [0] b.settings.timeout

def checkWarning (t : TestCase) (query : Path) : StateM σ Finding :=
  b.afterEngine w (.parsing query t.language (some b.settings.warningLevel)) fun c =>
    return .ofExit c [b.settings.warningExitCode, 0] b.settings.timeout

/-- Compares what the engine printed with what a file holds. -/
def checkAnswer (t : TestCase) (query : QueryOutline) (c : Completion) (result : Path) :
    StateM σ Finding := do
  let format := b.format t query
  let kind := AnswerKind.ofTest query format t.result t.cardinality
  match ← Answer.actual w b.converter c.stdout format kind query.ordered with
  | .error e =>
    return .failure (some c) s!"can not read {format.name} engine output: {e.message}"
  | .ok actual =>
    match ← Answer.expected w b.converter result kind query.ordered with
    | .error e =>
      return .failure (some c) s!"can not read expected result {result.text}: {e.message}"
    | .ok expected => return .ofComparison c (← b.judge.compare w actual expected t.cardinality)

/-- Judges what an engine left behind that was asked to evaluate a query. -/
def judgeEvaluation (t : TestCase) (query : QueryOutline) (c : Completion) : StateM σ Finding := do
  if !c.succeeded then return .ofExit c [0] b.settings.timeout
  else match t.result with
    | none => return .failure (some c) "no expected result declared"
    | some result =>
      if (← w.view).isFile result then checkAnswer w b t query c result
      else return .failure (some c) s!"expected result {result.text} does not exist"

def evaluationRequest (t : TestCase) (query : Path) (outline : QueryOutline) : EngineRequest :=
  ⟨query, t.language, some (b.format t outline), false, none, t.data, t.namedGraphs⟩

def checkEvaluation (t : TestCase) (query : Path) : StateM σ Finding := do
  match ((← w.view).content? query).bind Utf8.decode? with
  | none => return .failure none s!"can not read {query.text}: the file is missing or is no text"
  | some text =>
    let outline := QueryOutline.ofText (String.ofList text)
    b.afterEngine w (b.evaluationRequest t query outline) (judgeEvaluation w b t outline)

def check (t : TestCase) (query : Path) : StateM σ Finding :=
  if t.kind.isSyntax then checkSyntax w b t query
  else if t.kind = .warning then checkWarning w b t query
  else checkEvaluation w b t query

/-- Why a test is not run at all. -/
def skipReason? (t : TestCase) : Option String :=
  match t.skipReason with
  | some reason => some reason
  | none =>
    if !t.execute || t.expected == .skip then some "not executable"
    else if b.settings.dryRun then some "dry run"
    else if t.query.isNone then some "no query"
    else none

/-- The record of a test that was checked. -/
def record (t : TestCase) (f : Finding) (elapsed : Nat) : StateM σ TestRecord := do
  let r := TestRecord.ofCheck t f elapsed
  match f.completion with
  | none => return r
  | some c =>
    let interrupted ← if c.interrupted then pure true else w.isInterrupted
    return r.withCompletion c b.settings.outputLines interrupted

def run (t : TestCase) : StateM σ TestRecord :=
  match b.skipReason? t, t.query with
  | some reason, _ => return .skipped t.uri t.name reason
  | none, none => return .skipped t.uri t.name "no query"
  | none, some query => do
    let start ← w.now
    let finding ← b.check w t query
    let finish ← w.now
    b.record w t finding (finish - start)

end TestBed

end SparqlConformance
