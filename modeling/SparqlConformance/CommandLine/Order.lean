import SparqlConformance.CommandLine.Arguments
import SparqlConformance.Engine.Request
import SparqlConformance.Number.Power
/-!
# Orders

What a command line asks for. Options that are left out have the values of `Settings.standard`, unless a
variable of the environment says which converter and which engine to use.
-/
namespace SparqlConformance.CommandLine

inductive Order
  /-- Runs the suites of targets and maybe writes reports into files. -/
  | run (targets : List Path) (settings : Settings) (junit earl : Option Path)
  /-- Lists the tests of targets. -/
  | list (targets : List Path) (settings : Settings)
  /-- Prints the plan of a directory. -/
  | plan (directory : Path) (suite kind description programs : Option String) (data : List Path)
  | help
  | version
  deriving DecidableEq, Repr, Inhabited

/-- Options of every command. -/
def commonRules : List OptionRule :=
  [⟨"verbose", some 'v', false, false⟩, .flag "log-json", ⟨"help", some 'h', false, true⟩]

def settingsRules : List OptionRule :=
  commonRules
    ++ ["converter", "engine", "build-tool", "timeout", "format", "warning-level", "compare-tool",
        "diff-tool"].map OptionRule.setting
    ++ ["dry-run", "entailment"].map OptionRule.flag

def runRules : List OptionRule := settingsRules ++ ["junit", "earl"].map OptionRule.setting

def planRules : List OptionRule :=
  commonRules ++ ["suite", "kind", "description", "path"].map OptionRule.setting ++ [.settings "data"]

/-- A number with a sign that may be left out, between 0 and a bound. -/
def signed? (bound : Nat) (s : String) : Option Nat :=
  match s.toList with
  | '-' :: '+' :: _ => none
  | '-' :: r => (Text.decimalBelow? 1 r)
  | r => Text.decimalBelow? (bound + 1) r

/-- The value of an option, or the usual one, if it can be read. -/
def read {α : Type} (a : Arguments) (name : String) (usual : α) (value? : String → Option α) :
    Except UsageError α :=
  match a.value? name with
  | none => .ok usual
  | some v => ((value? v).map Except.ok).getD (.error (.invalidValue name v))

/-- Names of files are not empty. -/
def path? (s : String) : Option Path := if s.isEmpty then none else some ⟨s⟩

def pathOf (what s : String) : Except UsageError Path :=
  ((path? s).map Except.ok).getD (.error (.invalidValue what s))

def optionalPath (a : Arguments) (name : String) : Except UsageError (Option Path) :=
  read a name none fun s => (path? s).map some

def targetsOf (a : Arguments) : Except UsageError (List Path) :=
  if a.operands.isEmpty then .error (.missing "a target") else a.operands.mapM (pathOf "target")

/-- The settings of a run; `vars` are the variables of the environment. -/
def settingsOf (vars : List (String × String)) (a : Arguments) : Except UsageError Settings := do
  let usual := Settings.standard
  let text (name source : String) : Option String := (a.value? name).or (vars.lookup source)
  let seconds ← read a "timeout" (usual.timeout / 1000) fun s => Text.decimalBelow? (twoTo 64) s.toList
  let format ← read a "format" usual.format OutputFormat.ofName?
  let warningLevel ← read a "warning-level" usual.warningLevel (signed? 255)
  return { usual with
    converter := ((text "converter" "TO_NTRIPLES").map Tool.ofText).getD usual.converter
    engine := { usual.engine with
      tool := ((text "engine" "ROQET").map Tool.ofText).getD usual.engine.tool }
    build := { usual.build with
      tool := { usual.build.tool with
        program := (a.value? "build-tool").getD usual.build.tool.program } }
    timeout := seconds * 1000
    format
    warningLevel
    compareTool := (a.value? "compare-tool").map Tool.ofText
    diffTool := (a.value? "diff-tool").map Tool.ofText
    dryRun := a.has "dry-run"
    runEntailment := a.has "entailment" }

/-- The order of a command and its arguments. -/
def commandOrder (vars : List (String × String)) (name : String) (args : List String) :
    Except UsageError Order :=
  match name with
  | "run" => do
    let a ← Arguments.read runRules args
    if a.has "help" then return .help
    let targets ← targetsOf a
    return .run targets (← settingsOf vars a) (← optionalPath a "junit") (← optionalPath a "earl")
  | "list-tests" => do
    let a ← Arguments.read settingsRules args
    if a.has "help" then return .help
    return .list (← targetsOf a) { (← settingsOf vars a) with dryRun := true }
  | "plan" => do
    let a ← Arguments.read planRules args
    if a.has "help" then return .help
    match a.operands with
    | [directory] =>
      return .plan (← pathOf "directory" directory) (a.value? "suite") (a.value? "kind")
        (a.value? "description") (a.value? "path") (← (a.valuesOf "data").mapM (pathOf "data"))
    | [] => throw (.missing "a directory")
    | _ :: extra :: _ => throw (.unexpected extra)
  | "help" => return .help
  | _ => throw (.unexpected name)

def Order.ofArguments (vars : List (String × String)) (args : List String) :
    Except UsageError Order := do
  let (a, rest) ← scan (commonRules ++ [⟨"version", some 'V', false, true⟩]) true .none args
  if a.has "help" then return .help
  if a.has "version" then return .version
  match a.operands, rest with
  | [], name :: args => commandOrder vars name args
  | extra :: _, _ => throw (.unexpected extra)
  | [], [] => throw (.missing "a command")

end SparqlConformance.CommandLine
