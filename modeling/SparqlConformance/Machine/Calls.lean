import SparqlConformance.Machine.Shell.Interpreter
import SparqlConformance.Programs.Command
/-!
# Calls

How a machine calls a program: where it finds it, what it says when it can not, and what it tells the
caller about the end.
-/
namespace SparqlConformance.Machine

/-- Search path for programs that are called without any. -/
def usualSearchPath : String := "/bin:/usr/bin"

/-- The variables of a called program. -/
def variablesOf (inherited : List (String × String)) (env : Environment) : List (String × String) :=
  let path := env.searchPath? ((inherited.lookup "PATH").getD "")
  let changed := env.vars
    ++ (path.toList.map fun p => ("PATH", p)).filter fun v => !(env.vars.map Prod.fst).contains v.1
  changed ++ inherited.filter fun v => !(changed.map Prod.fst).contains v.1

/-- Whether a program is searched along a path that is not the caller's own. -/
def hasOwnSearchPath (inherited : List (String × String)) (env : Environment) : Bool :=
  (env.searchPath? ((inherited.lookup "PATH").getD "")).isSome
    || (env.vars.map Prod.fst).contains "PATH"

/-- Why something can not be reached: nothing is there, or a file stands in the way. -/
def unreachable (m : Machine) (program : String) (directory : Place) (path : Path) : LaunchError :=
  if m.tree.crossesFile directory path then .failed program "Not a directory (os error 20)"
  else .notFound program

/-- The directory in which a program works. -/
def workPlace (m : Machine) (c : Command) : Except LaunchError Place :=
  match c.workingDirectory with
  | none => .ok m.home
  | some dir =>
    match m.tree.locate? m.home dir with
    | some p =>
      if m.tree.isDirectory p then .ok p
      else .error (.failed c.program "Not a directory (os error 20)")
    | none => .error (m.unreachable c.program m.home dir)

/-- The file of a program and the path that led to it. -/
def programFile (m : Machine) (place : Place) (searchPath program : String) :
    Except LaunchError (Place × Path) :=
  let executable? (path : Path) : Option (Place × Path) :=
    (m.tree.locate? place path).bind fun p =>
      if FileTree.isExecutable (m.tree.find? p) then some (p, path) else none
  if program.isEmpty then .error (.notFound program)
  else if program.toList.contains '/' then
    match executable? ⟨program⟩, m.tree.locate? place ⟨program⟩ with
    | some found, _ => .ok found
    | none, some _ => .error (.notFound program)
    | none, none => .error (m.unreachable program place ⟨program⟩)
  else
    match (searchDirectories searchPath).findSome? fun dir => executable? (dir.join ⟨program⟩) with
    | some found => .ok found
    | none => .error (.notFound program)

/-- How the system takes a file: it can run it, the file is no program, or its interpreter is missing. -/
inductive Runnable
  | yes
  | unknownFormat
  | noInterpreter
  deriving DecidableEq, Repr

/-- Interpreters may be scripts themselves; the bound is on how many follow each other. -/
def runnable (m : Machine) (place : Place) : Nat → Place → Runnable
  | 0, _ => .noInterpreter
  | fuel + 1, file =>
    match m.tree.find? file with
    | some (.file bytes _) =>
      match Shell.interpreter? (Utf8.undecoded bytes) with
      | none => .unknownFormat
      | some (program, _) =>
        match m.tree.locate? place (UtilityCall.path program) with
        | some p => if FileTree.isExecutable (m.tree.find? p) then m.runnable place fuel p else .noInterpreter
        | none => .noInterpreter
    | some (.utility _) => .yes
    | _ => .noInterpreter

/-- Finds out what is run, where, and how; texts with a NUL can not be passed on. -/
def prepare (m : Machine) (inherited : List (String × String)) (c : Command) :
    Except LaunchError Shell.Launch := do
  let vars := variablesOf inherited c.environment
  let texts := c.program :: c.args ++ c.environment.vars.flatMap fun v => [v.1, v.2]
  if texts.any fun s => s.toList.contains '\x00' then
    throw (.failed c.program "nul byte found in provided data")
  let place ← m.workPlace c
  let (file, path) ←
    m.programFile place ((vars.lookup "PATH").getD usualSearchPath) c.program
  match m.runnable place 5 file with
  | .yes => pure ()
  | .noInterpreter => throw (.notFound c.program)
  | .unknownFormat =>
    if c.program.toList.contains '/' || !hasOwnSearchPath inherited c.environment then
      throw (.failed c.program "Exec format error (os error 8)")
  return ⟨file, Utf8.rawOf path.text, Utf8.rawOf c.program, c.args.map Utf8.rawOf,
    vars.map fun v => (Utf8.rawOf v.1, Utf8.rawOf v.2), place, [], 0⟩

/-- The exit code of a process, as its caller sees it. -/
def exitCodeOf (process : Nat) : Ending → Int
  | .exit code => Int.ofNat code
  | .killed p signal => if p = process then -Int.ofNat signal else 0
  | .expired => -9

def scriptDepth : Nat := 2000

/-- Runs a program until it ends or until its time is over. -/
def runLaunch (m : Machine) (l : Shell.Launch) (timeout : Option Nat) : Completion × Machine :=
  let (process, m) := m.nextNumber
  let (out, m) := m.newStream []
  let (err, m) := m.newStream []
  let start := m.clock
  let channels := [(0, .nothing), (1, .stream out), (2, .stream err)]
  let (e, m) := Shell.launch (Shell.runWithin scriptDepth) 10 { l with process, channels }
    { m with deadline := timeout.map fun t => start + t * 1000 }
  let text (n : Nat) : String := Utf8.textOfRaw (m.streamText n)
  (⟨text out, text err, exitCodeOf process e, e == .expired, false, m.clock - start⟩,
    { m with deadline := none })

/-- Calls a program. A call that is interrupted or out of time at once does nothing. -/
def call (inherited : List (String × String)) (watched : Bool) (c : Command) :
    StateM Machine (Except LaunchError Completion) := fun m =>
  match m.prepare inherited c with
  | .error e => (.error e, m)
  | .ok l =>
    if watched && m.interrupted then (.ok ⟨"", "", -9, false, true, 0⟩, m)
    else if c.timeout = some 0 then (.ok ⟨"", "", -9, true, false, 0⟩, m)
    else
      let (done, m) := m.runLaunch l c.timeout
      (.ok done, m)

end SparqlConformance.Machine
