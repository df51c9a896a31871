import SparqlConformance.Files.Path
import SparqlConformance.Text.Lines
/-!
# Commands

Calls of external programs: the changes that a call makes to the environment it inherits, the call
itself, and what it leaves behind.
-/
namespace SparqlConformance

/-- Directories searched for programs before the inherited ones, first to last, and variables that
replace inherited ones. -/
structure Environment where
  searchFirst : List Path
  vars : List (String × String)
  deriving DecidableEq, Repr, Inhabited

/-- The directories of a search path. -/
def searchDirectories (searchPath : String) : List Path :=
  (Text.splitAt ':' searchPath.toList).map fun s => ⟨String.ofList s⟩

namespace Environment

def inherited : Environment := ⟨[], []⟩

/-- Puts one more directory in front of those searched so far. -/
def searching (env : Environment) (dir : Path) : Environment :=
  { env with searchFirst := dir :: env.searchFirst }

def setting (env : Environment) (name value : String) : Environment :=
  { env with vars := (name, value) :: env.vars.filter fun v => v.1 != name }

/-- The search path of a call that inherits one; none if it stays as it is. A directory whose name
holds the separator can not be searched, and then the inherited path stays as well. -/
def searchPath? (env : Environment) (inherited : String) : Option String :=
  if env.searchFirst.isEmpty || env.searchFirst.any fun d => d.text.toList.contains ':' then none
  else some (":".intercalate (env.searchFirst.map Path.text ++ [inherited]))

end Environment

/-- One call of an external program. -/
structure Command where
  program : String
  args : List String
  workingDirectory : Option Path
  environment : Environment
  /-- In milliseconds. -/
  timeout : Option Nat
  deriving DecidableEq, Repr, Inhabited

namespace Command

def ofProgram (program : String) (args : List String) : Command :=
  ⟨program, args, none, .inherited, none⟩

/-- The call as it is shown to people. -/
def text (c : Command) : String := " ".intercalate (c.program :: c.args)

end Command

/-- What a finished or killed program left behind. The exit code is minus the number of a signal that
ended the program. -/
structure Completion where
  stdout : String
  stderr : String
  exitCode : Int
  timedOut : Bool
  interrupted : Bool
  /-- In microseconds. -/
  elapsed : Nat
  deriving DecidableEq, Repr, Inhabited

namespace Completion

def succeeded (c : Completion) : Bool := c.exitCode == 0 && !c.timedOut && !c.interrupted

/-- The last lines of what was printed, error output first. -/
def tail (c : Completion) (count : Nat) : String :=
  let all := linesOf c.stderr ++ linesOf c.stdout
  joinLines (all.drop (all.length - count))

end Completion

/-- Why a program could not be called. -/
inductive LaunchError
  /-- There is no such program, or it is not executable. -/
  | notFound (program : String)
  | failed (program reason : String)
  deriving DecidableEq, Repr, Inhabited

def LaunchError.message : LaunchError → String
  | notFound program => s!"{program}: command not found"
  | failed program reason => s!"{program}: {reason}"

end SparqlConformance
