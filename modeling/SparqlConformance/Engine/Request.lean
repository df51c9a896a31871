import SparqlConformance.Engine.Format
import SparqlConformance.Files.Url
import SparqlConformance.Programs.Command
import SparqlConformance.Tests.Kind
/-!
# Requests

The command lines of external tools, and those of the engine: how a query, its language and its data
are handed over.
-/
namespace SparqlConformance

/-- A program and the arguments that stand before its operands. -/
structure Tool where
  program : String
  args : List String
  deriving DecidableEq, Repr, Inhabited

namespace Tool

def command (tool : Tool) (operands : List String) : Command :=
  .ofProgram tool.program (tool.args ++ operands)

/-- The tool of a command line: its first word, called with the others. -/
def ofText (text : String) : Tool :=
  match Text.words text.toList with
  | [] => ⟨"", []⟩
  | program :: args => ⟨String.ofList program, args.map String.ofList⟩

end Tool

/-- The tool that knows the suites of a directory: with one target it lists them, with another it
prints the plan of a suite. -/
structure BuildTool where
  tool : Tool
  listTarget : String
  planTargetStart : String
  deriving DecidableEq, Repr, Inhabited

namespace BuildTool

def make : BuildTool := ⟨⟨"make", ["-s"]⟩, "get-testsuites-list", "get-testsuite-"⟩

def listCommand (b : BuildTool) : Command := b.tool.command [b.listTarget]

def planCommand (b : BuildTool) (suite : String) : Command :=
  b.tool.command [b.planTargetStart ++ suite]

end BuildTool

/-- The engine under test and the flags it understands; what belongs to an empty flag is left out. -/
structure Engine where
  tool : Tool
  languageFlag : String
  formatFlag : String
  dataFlag : String
  namedGraphFlag : String
  parseOnlyFlag : String
  warningFlag : String
  deriving DecidableEq, Repr, Inhabited

/-- One query for the engine. -/
structure EngineRequest where
  query : Path
  language : Language
  format : Option OutputFormat
  parseOnly : Bool
  warningLevel : Option Nat
  data : List Path
  namedGraphs : List Path
  deriving DecidableEq, Repr, Inhabited

namespace EngineRequest

/-- A request that only asks whether a query is well formed. -/
def parsing (query : Path) (language : Language) (warningLevel : Option Nat) : EngineRequest :=
  ⟨query, language, none, true, warningLevel, [], []⟩

/-- Absolute paths of queries are given as `file:` URLs. -/
def queryArgument (query : Path) : String := (Url.ofFilePath? query).getD query.text

end EngineRequest

namespace Engine

def roqet : Engine := ⟨⟨"roqet", []⟩, "-i", "-r", "-D", "-G", "-n", "-W"⟩

def option (flag value : String) : List String := if flag.isEmpty then [] else [flag, value]

def args (e : Engine) (r : EngineRequest) : List String :=
  let language := option e.languageFlag r.language.name
  let warning := r.warningLevel.toList.flatMap fun n => option e.warningFlag (toString n)
  let evaluation :=
    if r.parseOnly then (if e.parseOnlyFlag.isEmpty then [] else [e.parseOnlyFlag])
    else r.format.toList.flatMap (fun f => option e.formatFlag f.name)
      ++ r.data.flatMap (fun p => option e.dataFlag p.text)
      ++ r.namedGraphs.flatMap fun p => option e.namedGraphFlag p.text
  language ++ warning ++ evaluation ++ [EngineRequest.queryArgument r.query]

def command (e : Engine) (r : EngineRequest) : Command := e.tool.command (e.args r)

end Engine

/-- Everything a run needs to know. -/
structure Settings where
  /-- Prints an RDF file, its last operand, as N-Triples. -/
  converter : Tool
  engine : Engine
  build : BuildTool
  /-- The bound of every call, in milliseconds. -/
  timeout : Nat
  /-- The format of solutions and truth values, unless a test needs another one. -/
  format : OutputFormat
  warningLevel : Nat
  /-- The exit code of an engine that gave warnings. -/
  warningExitCode : Int
  /-- Called with an expected and an actual result, decides whether they mean the same. -/
  compareTool : Option Tool
  /-- Called with an expected and an actual result, shows how they differ. -/
  diffTool : Option Tool
  dryRun : Bool
  runEntailment : Bool
  /-- The number of lines of output that records keep. -/
  outputLines : Nat
  deriving DecidableEq, Repr, Inhabited

def Settings.standard : Settings where
  converter := ⟨"to-ntriples", []⟩
  engine := .roqet
  build := .make
  timeout := 30000
  format := .simple
  warningLevel := 1
  warningExitCode := 2
  compareTool := none
  diffTool := none
  dryRun := false
  runEntailment := false
  outputLines := 20

end SparqlConformance
