import SparqlConformance.Machine.Shell.Arithmetic
import SparqlConformance.Machine.Shell.Pattern
import SparqlConformance.Machine.Shell.Script
import SparqlConformance.Machine.State
/-!
# Expansion

What the words of a script become: variables, outputs and numbers take their place, unquoted values are
split into fields, and fields that are patterns become names of files.
-/
namespace SparqlConformance.Shell

/-- How far a script has come: on its way, leaving something, or at its end. -/
inductive Control
  | running
  | breaking (levels : Nat)
  | continuing (levels : Nat)
  | returning
  | exited
  | killed (process signal : Nat)
  | expired
  deriving DecidableEq, Repr, Inhabited

/-- A running shell. -/
structure State where
  machine : Machine
  /-- The number of the process itself, and the number it goes by in scripts. -/
  process : Nat
  mainProcess : Nat
  place : Place
  name : List Char
  args : List (List Char)
  vars : List (List Char × List Char)
  exported : List (List Char)
  functions : List (List Char × Command)
  /-- The values that variables had before the running function made them its own. -/
  locals : List (List Char × Option (List Char))
  /-- What is run on signals, and at the end under the number 0. -/
  traps : List (Nat × List Char)
  channels : List (Nat × Channel)
  status : Nat
  line : Nat
  stopsOnFailure : Bool
  /-- Whether variables that have no value are errors. -/
  stopsOnUnset : Bool
  /-- Inside a condition, where failure stops nothing. -/
  inCondition : Bool
  control : Control
  deriving Repr, Inhabited

namespace State

def channel (s : State) (n : Nat) : Channel := (s.channels.lookup n).getD .nothing

def setVariable (s : State) (name value : List Char) : State :=
  { s with vars := (name, value) :: s.vars.filter fun v => v.1 != name }

def unsetVariable (s : State) (name : List Char) : State :=
  { s with vars := s.vars.filter fun v => v.1 != name }

/-- Gives a variable back the value that it had. -/
def restore (s : State) (old : List Char × Option (List Char)) : State :=
  old.2.elim (s.unsetVariable old.1) (s.setVariable old.1)

def number (n : Nat) : List Char := Nat.toDigits 10 n

/-- The value of a variable or of a special parameter, as one text. -/
def value? (s : State) (name : List Char) : Option (List Char) :=
  match name with
  | ['#'] => some (number s.args.length)
  | ['?'] => some (number s.status)
  | ['$'] => some (number s.mainProcess)
  | ['-'] | ['!'] => some []
  | ['@'] | ['*'] => if s.args.isEmpty then none else some (Text.join [' '] s.args)
  | ['0'] => some s.name
  | c :: r =>
    if c.isDigit then s.args[((String.ofList (c :: r)).toNat?.getD 0) - 1]?
    else s.vars.lookup name
  | [] => none

def separators (s : State) : List Char := (s.vars.lookup "IFS".toList).getD [' ', '\t', '\n']

/-- Prints a message about the current line. -/
def complain (s : State) (message : String) : State :=
  let text := Utf8.textOfRaw s.name ++ s!": {s.line}: {message}\n"
  { s with machine := s.machine.write (s.channel 2) (Utf8.rawOf text) }

/-- Ends the script with an exit code. -/
def exit (s : State) (code : Nat) : State := { s with status := code, control := .exited }

end State

/-- A piece of an expanded word. -/
inductive Item
  | char (c : Char) (quoted splits : Bool)
  /-- Quotes around nothing, which still make a field. -/
  | empty
  /-- The end of a field. -/
  | gap
  deriving DecidableEq, Repr

namespace Item

def quotedText (s : List Char) : List Item := s.map fun c => .char c true false

def valueText (quoted : Bool) (s : List Char) : List Item := s.map fun c => .char c quoted (!quoted)

/-- The items of several values, each of which is a field of its own. -/
def fieldItems (quoted : Bool) : List (List Char) → List Item
  | [] => []
  | [s] => one s
  | s :: ss => one s ++ .gap :: fieldItems quoted ss
where
  one (s : List Char) : List Item := if quoted && s.isEmpty then [.empty] else valueText quoted s

end Item

/-- Fields while they are put together. -/
structure Splitting where
  done : List (List PatternChar)
  current : List PatternChar
  begun : Bool
  /-- White space has just ended a field. -/
  ended : Bool

namespace Splitting

def finish (p : Splitting) : Splitting :=
  ⟨p.current.reverse :: p.done, [], false, false⟩

def add (separators : List Char) (p : Splitting) (i : Item) : Splitting :=
  match i with
  | .gap => if p.begun then p.finish else p
  | .empty => { p with begun := true, ended := false }
  | .char c quoted splits =>
    if splits && separators.contains c then
      if c == ' ' || c == '\t' || c == '\n' then
        if p.begun then { p.finish with ended := true } else p
      else if p.ended then { p with ended := false }
      else p.finish
    else ⟨p.done, ⟨c, quoted⟩ :: p.current, true, false⟩

end Splitting

def splitFields (separators : List Char) (items : List Item) : List (List PatternChar) :=
  let p := items.foldl (Splitting.add separators) ⟨[], [], false, false⟩
  (if p.begun then p.finish else p).done.reverse

def plainChars (p : List PatternChar) : List Char := p.map PatternChar.char

/-! ## Names of files -/

/-- The pieces of a pattern between slashes. -/
def pathPieces : List PatternChar → List (List PatternChar)
  | [] => [[]]
  | p :: r =>
    if p.char = '/' then [] :: pathPieces r
    else match pathPieces r with
      | [] => [[p]]
      | q :: qs => (p :: q) :: qs

/-- The texts that a pattern stands for, piece by piece; `shown` is the text so far. -/
def matchPieces (tree : FileTree) (place : Place) (shown : List Char) :
    List (List PatternChar) → List (List Char)
  | [] => [shown]
  | piece :: rest =>
    let continued (name : List Char) : List Char :=
      if shown.isEmpty then name
      else if shown.getLast? = some '/' then shown ++ name else shown ++ '/' :: name
    if piece.isEmpty then
      matchPieces tree place (if shown.isEmpty then ['/'] else shown) rest
    else if isGlob piece then
      let directory : Path := ⟨if shown.isEmpty then "." else Utf8.textOfRaw shown⟩
      match tree.locate? place directory with
      | none => []
      | some p =>
        let names := [".", ".."] ++ tree.children p |>.map Utf8.rawOf
        let hidden (name : List Char) : Bool :=
          name.head? == some '.' && (piece.head?.map PatternChar.char) != some '.'
        (names.filter fun name => !hidden name && fitsPattern piece name).flatMap fun name =>
          matchPieces tree place (continued name) rest
    else
      let next := continued (plainChars piece)
      if (tree.locate? place ⟨Utf8.textOfRaw next⟩).isSome then matchPieces tree place next rest else []

/-- The names of files that fit a field, or the field itself. -/
def fileNames (tree : FileTree) (place : Place) (field : List PatternChar) : List (List Char) :=
  if isGlob field then
    match matchPieces tree place [] (pathPieces field) with
    | [] => [plainChars field]
    | names => names
  else [plainChars field]

/-! ## Words -/

/-- A step of a shell. -/
abbrev Step := StateM State

section words

/-! Outputs of scripts come from `outputOf`, which runs them. -/
variable (outputOf : List Char → Step (List Char))

def patternChars (items : List Item) : List PatternChar :=
  items.filterMap fun
    | .char c quoted _ => some ⟨c, quoted⟩
    | _ => none

def itemText (items : List Item) : List Char := plainChars (patternChars items)

/-- The items of a value to which nothing was done. -/
def keptItems (s : State) (quoted : Bool) (name : List Char) : List Item :=
  if name = ['@'] || (name = ['*'] && !quoted) then Item.fieldItems quoted s.args
  else if name = ['*'] then
    Item.valueText true (Text.join (s.separators.take 1) s.args)
  else Item.valueText quoted ((s.value? name).getD [])

/-- Expands the parts of words; the bound is on how deep words stand in words. -/
def expandParts : Nat → Word → Step (List Item)
  | 0, _ | _, [] => return []
  | fuel + 1, part :: rest => do
    let first ← match part with
      | .text quoted s =>
        pure (if quoted then (if s.isEmpty then [.empty] else Item.quotedText s)
          else s.map fun c => .char c false false)
      | .output quoted script => return (Item.valueText quoted (← outputOf script)) ++ (← expandParts fuel rest)
      | .number quoted expression => do
        let text := itemText (← expandParts fuel (documentWord expression))
        let s ← get
        let value (name : List Char) : Int :=
          (((s.value? name).bind Arithmetic.number?)).getD 0
        match Arithmetic.eval? value text with
        | some n => pure (Item.valueText quoted (toString n).toList)
        | none =>
          let shown := "\"" ++ Utf8.textOfRaw text ++ "\""
          modify fun s => (s.complain s!"arithmetic expression: expecting primary: {shown}").exit 2
          pure []
      | .variable quoted name change operand => do
        let s ← get
        let value := s.value? name
        let present (ifEmpty : Bool) : Bool := value.any fun v => !(ifEmpty && v.isEmpty)
        let other := expandParts fuel (operandWord quoted operand)
        match change with
        | .keep =>
          if s.stopsOnUnset && value.isNone && name != ['@'] && name != ['*'] then
            modify fun s => (s.complain s!"{Utf8.textOfRaw name}: parameter not set").exit 2
          pure (keptItems s quoted name)
        | .unknown =>
          modify fun s => (s.complain "Bad substitution").exit 2
          pure []
        | .length =>
          pure (Item.valueText quoted (State.number (value.getD []).length))
        | .default ifEmpty => if present ifEmpty then pure (keptItems s quoted name) else other
        | .instead ifEmpty => if present ifEmpty then other else pure []
        | .assign ifEmpty =>
          if present ifEmpty then pure (keptItems s quoted name)
          else do
            let items ← other
            modify fun s => s.setVariable name (itemText items)
            pure items
        | .complain ifEmpty =>
          if present ifEmpty then pure (keptItems s quoted name)
          else do
            let text := itemText (← other)
            let unset := if ifEmpty then "parameter not set or null" else "parameter not set"
            let why := if operand.isEmpty then unset else Utf8.textOfRaw text
            modify fun s => (s.complain s!"{Utf8.textOfRaw name}: {why}").exit 2
            pure []
        | .trim atEnd longest => do
          let pattern := patternChars (← expandParts fuel (operandWord false operand))
          pure (Item.valueText quoted (trimPattern atEnd longest pattern (value.getD [])))
    return first ++ (← expandParts fuel rest)

def wordBound (w : Word) : Nat := w.length + 1000

def expandWord (w : Word) : Step (List Item) := expandParts outputOf (wordBound w) w

/-- A word as one text, as in assignments. -/
def expandText (w : Word) : Step (List Char) := return itemText (← expandWord outputOf w)

def expandPattern (w : Word) : Step (List PatternChar) := return patternChars (← expandWord outputOf w)

/-- All arguments in quotes are no field at all when there are none. -/
def standsForNothing (s : State) (w : Word) (items : List Item) : Bool :=
  s.args.isEmpty && items.all (· == .empty) && w.any fun
    | .variable true name _ _ => name == ['@']
    | _ => false

/-- The fields that a word becomes. -/
def expandFields (w : Word) : Step (List (List Char)) := do
  let items ← expandWord outputOf w
  let s ← get
  if standsForNothing s w items then return []
  else return (splitFields s.separators items).flatMap (fileNames s.machine.tree s.place)

def expandAll : List Word → Step (List (List Char))
  | [] => return []
  | w :: ws => do
    let first ← expandFields outputOf w
    return first ++ (← expandAll ws)

end words

end SparqlConformance.Shell
