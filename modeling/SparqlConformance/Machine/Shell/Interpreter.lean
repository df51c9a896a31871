import SparqlConformance.Machine.Shell.Expansion
import SparqlConformance.Machine.Utilities
/-!
# Running scripts

What the commands of scripts do. Commands that contain others are run with a function for what they
contain, which is tied together at the end under a bound on the depth; loops have a bound of their own. A
script that goes beyond a bound counts as one that never ends.
-/
namespace SparqlConformance.Shell

/-- How a shell ended. -/
def State.ending (s : State) : Ending :=
  match s.control with
  | .killed p signal => .killed p signal
  | .expired => .expired
  | _ => .exit (s.status % 256)

/-- What a shell says about a signal that ended a process; nothing is said of interrupts and closed
pipes. -/
def obituary? (signal : Nat) : Option String :=
  match signal with
  | 1 => some "Hangup"
  | 3 => some "Quit"
  | 4 => some "Illegal instruction"
  | 5 => some "Trace/breakpoint trap"
  | 6 => some "Aborted"
  | 7 => some "Bus error"
  | 8 => some "Floating point exception"
  | 9 => some "Killed"
  | 10 => some "User defined signal 1"
  | 11 => some "Segmentation fault"
  | 12 => some "User defined signal 2"
  | 14 => some "Alarm clock"
  | 15 => some "Terminated"
  | 16 => some "Stack fault"
  | 24 => some "CPU time limit exceeded"
  | 25 => some "File size limit exceeded"
  | 26 => some "Virtual timer expired"
  | 27 => some "Profiling timer expired"
  | 29 => some "I/O possible"
  | 30 => some "Power failure"
  | 31 => some "Bad system call"
  | _ => none

/-- A shell after the end of another process. -/
def State.afterProcess (s : State) (process : Nat) (e : Ending) (m : Machine) : State :=
  let s := { s with machine := m }
  match e with
  | .exit code => { s with status := code }
  | .killed p signal =>
    if p = process then
      let message := (obituary? signal).elim [] fun text => Utf8.rawOf (text ++ "\n")
      { s with status := 128 + signal, machine := m.write (s.channel 2) message }
    else { s with control := .killed p signal }
  | .expired => { s with control := .expired }

def hang : Step Unit := modify fun s => { s with machine := s.machine.hang, control := .expired }

def isRunning : Step Bool := return (← get).control == .running

def setStatus (n : Nat) : Step Unit := modify fun s => { s with status := n }

/-- Ends a script on a failure where that was asked for. -/
def checkFailure : Step Unit := modify fun s =>
  if s.stopsOnFailure && !s.inCondition && s.status != 0 && s.control == .running then
    { s with control := .exited }
  else s

/-- Repeats a step for as long as it asks for it. -/
def loop : Nat → Step Bool → Step Unit
  | 0, _ => hang
  | n + 1, step => fun s =>
    match step s with
    | (true, s) => loop n step s
    | (false, s) => ((), s)

def loopBound : Nat := 200000

/-- Runs a step in a process of its own, which leaves nothing but its effects on the machine. -/
def inSubshell (step : Step Unit) : Step Unit := fun s =>
  let (process, m) := s.machine.nextNumber
  let (_, child) := step { s with machine := m, process, traps := [] }
  ((), s.afterProcess process child.ending child.machine)

def withChannel (n : Nat) (c : Channel) (s : State) : State :=
  { s with channels := (n, c) :: s.channels.filter fun e => e.1 != n }

section

variable (run : Command → Step Unit)

/-- Runs commands until one of them leaves the script. -/
def runAll : List Command → Step Unit
  | [] => pure ()
  | c :: cs => do
    run c
    if ← isRunning then runAll cs

/-- Runs a script; a line that is not well formed ends it. -/
def runScript (text : List Char) : Step Unit := do
  let script := readScript text
  runAll run script.commands
  if ← isRunning then
    match script.fault with
    | some (line, message) => modify fun s => ({ s with line }.complain message).exit 2
    | none => pure ()

/-- Runs what was asked for on a signal, or at the end. -/
def runTrap (signal : Nat) : Step Unit := do
  let before ← get
  match before.traps.lookup signal with
  | some action =>
    modify fun s => { s with control := .running }
    runScript run action
    modify fun s =>
      if s.control = .running then { s with status := before.status, control := before.control } else s
  | none => pure ()

/-- Runs a step and then what was asked for at the end. -/
def toTheEnd (step : Step Unit) : Step Unit := do
  step
  match (← get).control with
  | .killed .. | .expired => pure ()
  | _ =>
    runTrap run 0
    modify fun s => { s with traps := [] }

/-- What a script prints, without the line ends at its end. -/
def outputOf (script : List Char) : Step (List Char) := do
  let (n, m) := (← get).machine.newStream []
  modify fun s => { s with machine := m }
  inSubshell do
    modify (withChannel 1 (.stream n))
    toTheEnd run (runScript run script)
  let text := (← get).machine.streamText n
  return (text.reverse.dropWhile (· == '\n')).reverse

/-! ## Programs -/

/-- A program in a file, the path that led to it, and how it is called. -/
structure Launch where
  file : Place
  path : List Char
  name : List Char
  args : List (List Char)
  vars : List (List Char × List Char)
  place : Place
  channels : List (Nat × Channel)
  process : Nat
  deriving Repr, Inhabited

def placeText (place : Place) : List Char := Utf8.rawOf (FileTree.pathOf place).text

/-- A shell that was just called. -/
def Launch.state (l : Launch) (m : Machine) (name : List Char) (args : List (List Char)) : State where
  machine := m
  process := l.process
  mainProcess := l.process
  place := l.place
  name
  args
  vars := ("PWD".toList, placeText l.place) :: l.vars.filter fun v => v.1 != "PWD".toList
  exported := l.vars.map Prod.fst
  functions := []
  locals := []
  traps := []
  channels := l.channels
  status := 0
  line := 1
  stopsOnFailure := false
  stopsOnUnset := false
  inCondition := false
  control := .running

def runText (text : List Char) (s : State) : Ending × Machine :=
  let (_, s) := toTheEnd run (runScript run text) s
  (s.ending, s.machine)

/-- Calls a shell with arguments: options, and then a script, the file of one, or nothing. -/
def runShell (l : Launch) (m : Machine) : List (List Char) → Bool → Ending × Machine
  | ['-', 'c'] :: script :: rest, stops =>
    let s := l.state m (rest.headD l.name) rest.tail
    runText run script { s with stopsOnFailure := stops }
  | ('-' :: o :: os) :: rest, stops =>
    if (o :: os).getLast? = some 'c' then
      let s := l.state m (rest.tail.headD l.name) rest.tail.tail
      runText run (rest.headD []) { s with stopsOnFailure := stops || (o :: os).contains 'e' }
    else runShell l m rest (stops || (o :: os).contains 'e')
  | file :: args, stops =>
    let s := { l.state m file args with stopsOnFailure := stops }
    match m.tree.locate? l.place (UtilityCall.path file) with
    | some p => if m.tree.isDirectory p then (.exit 2, m) else runText run (m.fileText p) s
    | none =>
      let s := { s with name := l.name, line := 0 }.complain
        s!"cannot open {Utf8.textOfRaw file}: No such file"
      (.exit 2, s.machine)
  | [], _ =>
    let (text, m) := m.readAll ((l.channels.lookup 0).getD .nothing)
    runText run text (l.state m l.name [])

/-- The interpreter that the first line of a script names, and the argument it is given. -/
def interpreter? (text : List Char) : Option (List Char × List (List Char)) :=
  match text with
  | '#' :: '!' :: r =>
    let line := Text.trim (r.takeWhile (· != '\n'))
    let program := line.takeWhile fun c => c != ' ' && c != '\t'
    let argument := Text.trim (line.drop program.length)
    if program.isEmpty then none else some (program, if argument.isEmpty then [] else [argument])
  | _ => none

def Launch.call (l : Launch) : UtilityCall :=
  let channel (n : Nat) := (l.channels.lookup n).getD .nothing
  ⟨Utf8.textOfRaw l.name, l.args, l.place, channel 0, channel 1, channel 2⟩

/-- Runs a program. A script is run by its interpreter, or by the shell when it names none. -/
def launch : Nat → Launch → Machine → Ending × Machine
  | 0, _, m => (.expired, m.hang)
  | fuel + 1, l, m =>
    match m.tree.find? l.file with
    | some (.utility .sh) => runShell run l m l.args false
    | some (.utility u) => l.call.run m u
    | some (.file bytes _) =>
      match interpreter? (Utf8.undecoded bytes) with
      | none => runShell run l m (l.path :: l.args) false
      | some (program, argument) =>
        match m.tree.locate? l.place (UtilityCall.path program) with
        | some p =>
          launch fuel
            { l with file := p, path := program, name := program, args := argument ++ l.path :: l.args } m
        | none => (.exit 127, m)
    | _ => (.exit 126, m)

/-- The file of a program that is searched, if it can be found. -/
def searchProgram? (s : State) (name : List Char) : Option (Place × List Char) :=
  let tree := s.machine.tree
  let candidates :=
    if name.contains '/' then [name]
    else (Text.splitAt ':' ((s.value? "PATH".toList).getD [])).map fun dir =>
      if dir.isEmpty then name else dir ++ '/' :: name
  candidates.findSome? fun path =>
    match tree.locate? s.place (UtilityCall.path path) with
    | some p => if FileTree.isExecutable (tree.find? p) then some (p, path) else none
    | none => none

def exportedVariables (s : State) : List (List Char × List Char) :=
  s.vars.filter fun v => s.exported.contains v.1

/-- Calls a program in a process and goes on with its exit code. Messages begin with what calls it. -/
def runProgram (what : String) (process : Nat) (extra : List (List Char × List Char))
    (name : List Char) (args : List (List Char)) : Step Unit := do
  let s ← get
  match searchProgram? s name with
  | some (file, path) =>
    let inherited := (exportedVariables s).filter fun v => !(extra.map Prod.fst).contains v.1
    let (e, m) :=
      launch run 10 ⟨file, path, name, args, extra ++ inherited, s.place, s.channels, process⟩ s.machine
    set (s.afterProcess process e m)
  | none =>
    if name.contains '/' && (s.machine.tree.locate? s.place (UtilityCall.path name)).isSome then
      set { s.complain s!"{what}{Utf8.textOfRaw name}: Permission denied" with status := 126 }
    else set { s.complain s!"{what}{Utf8.textOfRaw name}: not found" with status := 127 }

/-- Calls a program in a new process. -/
def runExternal (extra : List (List Char × List Char)) (name : List Char)
    (args : List (List Char)) : Step Unit := do
  let (process, m) := (← get).machine.nextNumber
  modify fun s => { s with machine := m }
  runProgram run "" process extra name args

/-! ## Commands that belong to the shell -/

def amount (args : List (List Char)) (usual : Nat) : Nat :=
  match args with
  | a :: _ => (UtilityCall.number? a).getD usual
  | [] => usual

def leave (args : List (List Char)) (control : Control) : Step Unit := modify fun s =>
  match args with
  | [] => { s with control }
  | a :: _ =>
    match UtilityCall.number? a with
    | some n => { s with status := n, control }
    | none => (s.complain s!"exit: Illegal number: {Utf8.textOfRaw a}").exit 2

/-- Gives a function variables of its own, which are put back when it ends. -/
def makeLocal : List (List Char) → Step Unit
  | [] => pure ()
  | w :: ws => do
    let name := w.takeWhile (· != '=')
    modify fun s => { s with locals := (name, s.vars.lookup name) :: s.locals }
    makeLocal ws

/-- Sets what is run on signals and at the end. -/
def setTraps : List (List Char) → Step Unit
  | [] => setStatus 0
  | action :: signals => do
    let numbers := signals.filterMap fun s =>
      if s = "EXIT".toList then some 0 else UtilityCall.signal? s
    modify fun s =>
      let others := s.traps.filter fun t => !numbers.contains t.1
      let new := if action = ['-'] then [] else numbers.map fun n => (n, action)
      { s with traps := new ++ others, status := 0 }

/-- Assigns the values of words like `name=value`, or exports names alone. -/
def assignWords (exporting : Bool) : List (List Char) → Step Unit
  | [] => setStatus 0
  | w :: ws => do
    let (name, value) := match Text.cutFirst '=' w with
      | some (name, value) => (name, some value)
      | none => (w, none)
    modify fun s =>
      let s := match value with
        | some v => s.setVariable name v
        | none => s
      if exporting then { s with exported := name :: s.exported } else s
    assignWords exporting ws

def setOptions : List (List Char) → Step Unit
  | [] => setStatus 0
  | ['-', '-'] :: rest => modify fun s => { s with args := rest, status := 0 }
  | ('-' :: os) :: rest => do
    if os.contains 'e' then modify fun s => { s with stopsOnFailure := true }
    if os.contains 'u' then modify fun s => { s with stopsOnUnset := true }
    setOptions rest
  | ('+' :: os) :: rest => do
    if os.contains 'e' then modify fun s => { s with stopsOnFailure := false }
    if os.contains 'u' then modify fun s => { s with stopsOnUnset := false }
    setOptions rest
  | args => modify fun s => { s with args, status := 0 }

/-- Gives the fields of a line to variables; the last one takes what is left. -/
def assignFields (names : List (List Char)) (line : List Char) : Step Unit :=
  match names with
  | [] => pure ()
  | [name] => modify fun s => s.setVariable name (Text.trim line)
  | name :: rest => do
    let line := Text.trimStart line
    let first := line.takeWhile fun c => !Text.isSpace c
    modify fun s => s.setVariable name first
    assignFields rest (line.drop first.length)

def readVariables (names : List (List Char)) : Step Unit := do
  let s ← get
  let names := names.filter fun n => n.head? != some '-'
  match s.machine.readLine (s.channel 0) with
  | some (line, m) =>
    modify fun s => { s with machine := m, status := 0 }
    assignFields names line
  | none =>
    assignFields names []
    setStatus 1

def changeDirectory (args : List (List Char)) : Step Unit := do
  let s ← get
  let asked := args.headD ((s.value? "HOME".toList).getD ['/'])
  let back := asked = ['-']
  let target := if back then (s.value? "OLDPWD".toList).getD (placeText s.place) else asked
  match s.machine.tree.locate? s.place (UtilityCall.path target) with
  | some p =>
    if s.machine.tree.isDirectory p then do
      let moved := (s.setVariable "OLDPWD".toList (placeText s.place)).setVariable "PWD".toList
        (placeText p)
      let shown := if back then placeText p ++ ['\n'] else []
      set { moved with place := p, status := 0, machine := s.machine.write (s.channel 1) shown }
    else set { s.complain s!"cd: can't cd to {Utf8.textOfRaw target}" with status := 2 }
  | none => set { s.complain s!"cd: can't cd to {Utf8.textOfRaw target}" with status := 2 }

/-- Runs the text of a script in the shell itself. -/
def runHere (text : List Char) : Step Unit := do
  setStatus 0
  runScript run text

def runFile (args : List (List Char)) : Step Unit := do
  let s ← get
  match args.head? with
  | none => setStatus 0
  | some a =>
    match s.machine.tree.locate? s.place (UtilityCall.path a) with
    | some p => do
      runHere run (s.machine.fileText p)
      modify fun s => if s.control = .returning then { s with control := .running } else s
    | none =>
      modify fun s => (s.complain s!".: cannot open {Utf8.textOfRaw a}: No such file").exit 2

/-- Runs a utility in the shell itself. -/
def runUtility (u : Utility) (name : String) (args : List (List Char)) : Step Unit := do
  let s ← get
  let label := s!"{Utf8.textOfRaw s.name}: {s.line}: {name}"
  let c : UtilityCall := ⟨label, args, s.place, s.channel 0, s.channel 1, s.channel 2⟩
  let (e, m) := c.run s.machine u
  match e with
  | .killed p signal =>
    if p = s.process && signal != 9 && (s.traps.lookup signal).isSome then
      set { s with machine := m, status := 0 }
      runTrap run signal
    else set { s with machine := m, control := .killed p signal }
  | e => set (s.afterProcess s.process e m)

/-- Replaces the shell by a program; without one only the redirections stay. -/
def exec (extra : List (List Char × List Char)) : List (List Char) → Step Unit
  | [] => setStatus 0
  | name :: args => do
    let s ← get
    runProgram run "exec: " s.process extra name args
    modify fun s => if s.control = .running then
        (if s.status = 128 + 0 then s else { s with control := .exited })
      else s

/-- A command of the shell itself, if there is one of that name. -/
def special? (extra : List (List Char × List Char)) (name : String) (args : List (List Char)) :
    Option (Step Unit) :=
  match name with
  | ":" => some (setStatus 0)
  | "." => some (runFile run args)
  | "break" => some (modify fun s => { s with status := 0, control := .breaking (amount args 1) })
  | "continue" =>
    some (modify fun s => { s with status := 0, control := .continuing (amount args 1) })
  | "eval" => some (runHere run (Text.join [' '] args))
  | "exec" => some (exec run extra args)
  | "exit" => some (leave args .exited)
  | "export" | "readonly" => some (assignWords true args)
  | "return" => some (leave args .returning)
  | "set" => some (setOptions args)
  | "shift" => some (modify fun s =>
      if s.args.length < amount args 1 then (s.complain "shift: can't shift that many").exit 2
      else { s with args := s.args.drop (amount args 1), status := 0 })
  | "trap" => some (setTraps args)
  | "alias" | "umask" | "wait" => some (setStatus 0)
  | "unset" => some do
      modify fun s => args.foldl State.unsetVariable s
      setStatus 0
  | _ => none

/-- A command of the shell that a function may replace. -/
def regular? (name : String) (args : List (List Char)) : Option (Step Unit) :=
  match name with
  | "[" => some (if args.getLast? = some [']'] then runUtility run .test "[" args.dropLast
      else modify fun s => { s.complain "[: missing ]" with status := 2 })
  | "cd" => some (changeDirectory args)
  | "echo" => some (runUtility run .echo name args)
  | "false" => some (setStatus 1)
  | "kill" => some (runUtility run .kill name args)
  | "local" => some do
      makeLocal args
      assignWords false args
  | "printf" => some (runUtility run .printf name args)
  | "pwd" => some (runUtility run .pwd name args)
  | "read" => some (readVariables args)
  | "test" => some (runUtility run .test name args)
  | "true" => some (setStatus 0)
  | _ => none

/-- Runs a function with arguments. -/
def callFunction (body : Command) (args : List (List Char)) : Step Unit := do
  let before ← get
  modify fun s => { s with args, locals := [] }
  run body
  modify fun s =>
    let s := s.locals.foldl State.restore s
    { s with
      args := before.args, locals := before.locals
      control := if s.control = .returning then .running else s.control }

/-! ## All commands -/

/-- Prints how a command would be found. -/
def findCommand (name : List Char) : Step Unit := do
  let s ← get
  let isOwn := (s.functions.lookup name).isSome
    || (special? run [] (Utf8.textOfRaw name) []).isSome || (regular? run (Utf8.textOfRaw name) []).isSome
  match if isOwn then some name else (searchProgram? s name).map Prod.snd with
  | some text => set { s with machine := s.machine.write (s.channel 1) (text ++ ['\n']), status := 0 }
  | none => setStatus 127

/-- Runs the command that fields call for. -/
def runFields (extra : List (List Char × List Char)) (name : List Char)
    (args : List (List Char)) : Step Unit := do
  let s ← get
  let text := Utf8.textOfRaw name
  match special? run extra text args, s.functions.lookup name with
  | some step, _ => step
  | none, some body => callFunction run body args
  | none, none =>
    match if text = "command" then none else regular? run text args with
    | some step => step
    | none =>
      match text, args with
      | "command", ['-', 'v'] :: name :: _ => findCommand run name
      | "command", name :: args =>
        match regular? run (Utf8.textOfRaw name) args with
        | some step => step
        | none => runExternal run extra name args
      | _, _ => runExternal run extra name args

def expandAssignments : List (List Char × Word) → Step (List (List Char × List Char))
  | [] => return []
  | (name, w) :: rest => do
    let value ← expandText (outputOf run) w
    return (name, value) :: (← expandAssignments rest)

def hasOutput (ws : List Word) : Bool :=
  ws.any fun w => w.any fun
    | .output .. => true
    | _ => false

def runSimple (line : Nat) (assignments : List (List Char × Word)) (words : List Word) :
    Step Unit := do
  modify fun s => { s with line }
  let fields ← expandAll (outputOf run) words
  let values ← expandAssignments run assignments
  if ← isRunning then
    match fields with
    | [] =>
      modify fun s => values.foldl (fun s v => s.setVariable v.1 v.2) s
      if !hasOutput (words ++ assignments.map Prod.snd) then setStatus 0
    | name :: args => runFields run values name args
    checkFailure

/-- The channel that a redirection opens; it fails with a message. -/
def openChannel (s : State) (kind : RedirectKind) (target : List Char) :
    Except String (Channel × Machine) :=
  let m := s.machine
  let path := UtilityCall.path target
  match kind with
  | .read =>
    if path.text = "/dev/null" then .ok (.nothing, m)
    else match m.tree.locate? s.place path with
      | some p =>
        let (n, m) := m.newStream [m.fileText p]
        .ok (.stream n, m)
      | none => .error s!"cannot open {path.text}: No such file"
  | .document =>
    let (n, m) := m.newStream [target]
    .ok (.stream n, m)
  | .copy =>
    match UtilityCall.number? target with
    | some n =>
      match s.channels.lookup n with
      | some c => .ok (c, m)
      | none => .error s!"{n}: Bad file descriptor"
    | none => if target = ['-'] then .ok (.nothing, m) else .error s!"{path.text}: bad fd number"
  | .write | .append =>
    if path.text = "/dev/null" then .ok (.nothing, m)
    else if path.text = "/dev/stdout" then .ok (s.channel 1, m)
    else if path.text = "/dev/stderr" then .ok (s.channel 2, m)
    else match m.tree.locateNew? s.place path with
      | some p =>
        let old := match kind, m.tree.find? p with
          | .append, some (.file bytes _) => bytes
          | _, _ => []
        let executable := FileTree.isExecutable (m.tree.find? p)
        .ok (.file p, { m with tree := m.tree.put p (.file old executable) })
      | none =>
        if m.tree.node? s.place path = some .directory then
          .error s!"cannot create {path.text}: Is a directory"
        else .error s!"cannot create {path.text}: Directory nonexistent"

/-- Opens redirections from left to right; gives whether all of them worked. -/
def openAll : List Redirect → Step Bool
  | [] => return true
  | r :: rs => do
    let target ← expandText (outputOf run) r.target
    let s ← get
    match openChannel s r.kind target with
    | .ok (c, m) =>
      set (withChannel r.channel c { s with machine := m })
      openAll rs
    | .error message =>
      set { s.complain message with status := 2 }
      return false

/-- Whether redirections outlast a command. -/
def keepsChannels : Command → Bool
  | .simple _ [] [[.text _ s]] => s == "exec".toList
  | _ => false

def runRedirected (c : Command) (rs : List Redirect) : Step Unit := do
  let before := (← get).channels
  if ← openAll run rs then run c else checkFailure
  if !keepsChannels c then modify fun s => { s with channels := before }

/-- Runs commands one after the other, each on what the one before printed. -/
def runPipeline : List Command → Step Unit
  | [] => pure ()
  | [c] => inSubshell (run c)
  | c :: cs => do
    let (n, m) := (← get).machine.newStream []
    modify fun s => { s with machine := m }
    inSubshell do
      modify (withChannel 1 (.stream n))
      run c
    if ← isRunning then
      let before := (← get).channels
      modify (withChannel 0 (.stream n))
      runPipeline cs
      modify fun s => { s with channels := before }

/-- Runs a command whose failure stops nothing. -/
def runCondition (c : Command) : Step Unit := do
  let before := (← get).inCondition
  modify fun s => { s with inCondition := true }
  run c
  modify fun s => { s with inCondition := before }

def succeeded : Step Bool := return (← get).status == 0

/-- Looks at how the body of a loop was left, and says whether the loop goes on. -/
def goesOn : Step Bool := fun s =>
  match s.control with
  | .running => (true, s)
  | .breaking n =>
    (false, { s with control := if n ≤ 1 then .running else .breaking (n - 1) })
  | .continuing n =>
    if n ≤ 1 then (true, { s with control := .running })
    else (false, { s with control := .continuing (n - 1) })
  | _ => (false, s)

/-- One round of a loop. The exit code of a loop is that of the last body that ran. -/
def runRound (onSuccess : Bool) (condition body : Command) (last : Nat) : Step (Option Nat) := do
  runCondition run condition
  if !(← goesOn) then return none
  else if (← succeeded) == onSuccess then
    run body
    if ← goesOn then return some (← get).status else return none
  else
    setStatus last
    return none

def runRepeated (onSuccess : Bool) (condition body : Command) : Step Unit := do
  rounds loopBound 0
where
  rounds : Nat → Nat → Step Unit
    | 0, _ => hang
    | n + 1, last => fun s =>
      match runRound run onSuccess condition body last s with
      | (some status, s) => rounds n status s
      | (none, s) => ((), s)

def runEach (name : List Char) (body : Command) : List (List Char) → Step Unit
  | [] => pure ()
  | w :: ws => do
    modify fun s => s.setVariable name w
    run body
    if ← goesOn then runEach name body ws

/-- The commands of the first case that a text fits. -/
def findCase (text : List Char) : List (List Word × Command) → Step (Option Command)
  | [] => return none
  | (patterns, body) :: rest => do
    if ← fitsAny patterns then return some body else findCase text rest
where
  fitsAny : List Word → Step Bool
    | [] => return false
    | w :: ws => do
      let pattern ← expandPattern (outputOf run) w
      if fitsPattern pattern text then return true else fitsAny ws

/-- Runs a command. -/
def runCommand (c : Command) : Step Unit := do
  match c with
  | .simple line assignments words => runSimple run line assignments words
  | .redirected c rs => runRedirected run c rs
  | .pipeline cs =>
    runPipeline run cs
    checkFailure
  | .negated c =>
    runCondition run c
    modify fun s => { s with status := if s.status = 0 then 1 else 0 }
  | .both a b =>
    runCondition run a
    if (← isRunning) && (← succeeded) then run b
  | .either a b =>
    runCondition run a
    if (← isRunning) && !(← succeeded) then run b
  | .sequence cs => runAll run cs
  | .subshell c =>
    inSubshell (run c)
    checkFailure
  | .background c =>
    let clock := (← get).machine.clock
    inSubshell (run c)
    modify fun s => { s with machine := { s.machine with clock }, status := 0 }
  | .branch condition yes no =>
    runCondition run condition
    if ← isRunning then
      let chosen := if ← succeeded then yes else no
      setStatus 0
      run chosen
  | .repeated onSuccess condition body => runRepeated run onSuccess condition body
  | .each name words body =>
    let values ← match words with
      | some ws => expandAll (outputOf run) ws
      | none => pure (← get).args
    setStatus 0
    runEach run name body values
  | .choose word cases =>
    let text ← expandText (outputOf run) word
    match ← findCase run text cases with
    | some body => do
      setStatus 0
      run body
    | none => setStatus 0
  | .define name body =>
    modify fun s => { s with functions := (name, body) :: s.functions, status := 0 }

end

/-- Runs a command with a bound on how deep commands contain each other. -/
def runWithin : Nat → Command → Step Unit
  | 0, _ => hang
  | fuel + 1, c => runCommand (runWithin fuel) c

end SparqlConformance.Shell
