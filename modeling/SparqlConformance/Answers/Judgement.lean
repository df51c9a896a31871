import SparqlConformance.Answers.Comparison
import SparqlConformance.Engine.Request
import SparqlConformance.World
/-!
# Judgement

Comparison with the help of external tools. When the texts of two answers differ, one tool may still find
that they mean the same, and another may show how they differ better than their lines do. Lax tests are
about numbers of solutions, and tools are not asked about them.
-/
namespace SparqlConformance

/-- The tools that are called with an expected and an actual answer, in files. -/
structure Judge where
  compareTool : Option Tool
  diffTool : Option Tool
  environment : Environment
  /-- In milliseconds. -/
  timeout : Nat
  deriving DecidableEq, Repr, Inhabited

namespace Judge

/-- Whether tools are asked about two different answers. -/
def consults (j : Judge) (actual expected : Answer) (cardinality : Cardinality) : Bool :=
  actual.kind == expected.kind && !(cardinality == .lax && actual.kind == .solutions)
    && (j.compareTool.isSome || j.diffTool.isSome)

/-- The texts that tools are given, the expected one first. -/
def texts (actual expected : Answer) : String × String :=
  match actual, expected with
  | .solutions actual, .solutions expected =>
    let (expected, actual) := canonicalPair expected actual
    (joinLines expected ++ "\n", joinLines actual ++ "\n")
  | actual, expected => (expected.text, actual.text)

def expectedFile : TemporaryName := ⟨"sparqlcheck-expected-", ".txt"⟩

def actualFile : TemporaryName := ⟨"sparqlcheck-actual-", ".txt"⟩

def command (j : Judge) (tool : Tool) (expected actual : Path) : Command :=
  { tool.command [expected.text, actual.text] with
    environment := j.environment, timeout := some j.timeout }

/-- A comparison tool that ends with 0 finds no difference. -/
def accepts : Except LaunchError Completion → Bool
  | .ok c => c.exitCode == 0
  | .error _ => false

/-- What a diff tool that did its work printed. -/
def explanation? : Except LaunchError Completion → Option String
  | .ok c => if !c.timedOut && (c.exitCode == 0 || c.exitCode == 1) then some c.stdout else none
  | .error _ => none

variable {σ : Type}

def callTool (w : World σ) (j : Judge) (expected actual : Path) :
    Option Tool → StateM σ (Option (Except LaunchError Completion))
  | none => pure none
  | some tool => do return some (← w.call false (j.command tool expected actual))

/-- Asks the tools about different answers. -/
def consult (w : World σ) (j : Judge) (explanation : String) (expected actual : Path) :
    StateM σ Comparison := do
  let verdict ← callTool w j expected actual j.compareTool
  if verdict.any accepts then return .same
  else
    let shown ← callTool w j expected actual j.diffTool
    return .differ ((shown.bind explanation?).getD explanation)

/-- Asks the tools with the answers in temporary files; without files nobody is asked. -/
def consultWithFiles (w : World σ) (j : Judge) (explanation : String) (texts : String × String) :
    StateM σ Comparison := do
  match ← w.createTemporary none expectedFile (Utf8.encode texts.1.toList) with
  | .error _ => return .differ explanation
  | .ok expected =>
    let result ← match ← w.createTemporary none actualFile (Utf8.encode texts.2.toList) with
      | .error _ => pure (.differ explanation)
      | .ok actual => do
        let result ← consult w j explanation expected actual
        w.remove actual
        pure result
    w.remove expected
    return result

def compare (w : World σ) (j : Judge) (actual expected : Answer) (cardinality : Cardinality) :
    StateM σ Comparison :=
  match actual.compare expected cardinality with
  | .same => pure .same
  | .differ explanation =>
    if j.consults actual expected cardinality then
      consultWithFiles w j explanation (texts actual expected)
    else pure (.differ explanation)

end Judge

end SparqlConformance
