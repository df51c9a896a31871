import SparqlConformance.Text.CharClass
import SparqlConformance.Text.Lines
/-!
# Arguments

The arguments of a command line: options, which may have a value, and operands. The value of an option is
the next argument or follows an equals sign. After two dashes everything is an operand.
-/
namespace SparqlConformance.CommandLine

/-- An option of a command. -/
structure OptionRule where
  name : String
  letter : Option Char
  hasValue : Bool
  isRepeatable : Bool
  deriving DecidableEq, Repr, Inhabited

namespace OptionRule

def flag (name : String) : OptionRule := ⟨name, none, false, false⟩

def setting (name : String) : OptionRule := ⟨name, none, true, false⟩

def settings (name : String) : OptionRule := ⟨name, none, true, true⟩

end OptionRule

/-- What is wrong with a command line. -/
inductive UsageError
  | unexpected (argument : String)
  | missingValue (option : String)
  | invalidValue (option value : String)
  | repeated (option : String)
  | missing (what : String)
  deriving DecidableEq, Repr, Inhabited

def UsageError.message : UsageError → String
  | unexpected argument => s!"unexpected argument '{argument}'"
  | missingValue option => s!"a value is required for '--{option}'"
  | invalidValue option value => s!"invalid value '{value}' for '{option}'"
  | repeated option => s!"the argument '--{option}' cannot be used multiple times"
  | missing what => s!"missing {what}"

/-- The arguments of a command in the order in which they were given. -/
structure Arguments where
  flags : List String
  values : List (String × String)
  operands : List String
  deriving DecidableEq, Repr, Inhabited

namespace Arguments

def none : Arguments := ⟨[], [], []⟩

def has (a : Arguments) (name : String) : Bool := a.flags.contains name

def value? (a : Arguments) (name : String) : Option String := a.values.lookup name

def valuesOf (a : Arguments) (name : String) : List String :=
  a.values.filterMap fun v => if v.1 = name then some v.2 else Option.none

def addFlag (a : Arguments) (r : OptionRule) : Except UsageError Arguments :=
  if a.has r.name && !r.isRepeatable then .error (.repeated r.name)
  else .ok { a with flags := a.flags ++ [r.name] }

def addValue (a : Arguments) (r : OptionRule) (value : String) : Except UsageError Arguments :=
  if (a.value? r.name).isSome && !r.isRepeatable then .error (.repeated r.name)
  else .ok { a with values := a.values ++ [(r.name, value)] }

/-- Flags that are given by their letters. -/
def addLetters (rules : List OptionRule) (argument : String) :
    Arguments → List Char → Except UsageError Arguments
  | a, [] => .ok a
  | a, c :: cs =>
    match rules.find? fun r => r.letter == some c && !r.hasValue with
    | some r => do addLetters rules argument (← a.addFlag r) cs
    | .none => .error (.unexpected argument)

end Arguments

/-- What an argument is by its form. -/
inductive ArgumentForm
  | separator
  | long (name : String) (value : Option String)
  | letters (cs : List Char)
  | operand
  deriving DecidableEq, Repr

def ArgumentForm.of (argument : String) : ArgumentForm :=
  match argument.toList with
  | ['-', '-'] => .separator
  | '-' :: '-' :: s =>
    match Text.cutFirst '=' s with
    | some (name, value) => .long (String.ofList name) (some (String.ofList value))
    | none => .long (String.ofList s) none
  | '-' :: c :: cs => .letters (c :: cs)
  | _ => .operand

/-- Reads arguments, all of them or only those before the first operand; the others are left over. -/
def scan (rules : List OptionRule) (stops : Bool) :
    Arguments → List String → Except UsageError (Arguments × List String)
  | a, [] => .ok (a, [])
  | a, argument :: rest =>
    match ArgumentForm.of argument with
    | .separator => .ok ({ a with operands := a.operands ++ rest }, [])
    | .letters cs => do scan rules stops (← a.addLetters rules argument cs) rest
    | .operand =>
      if stops then .ok (a, argument :: rest)
      else scan rules stops { a with operands := a.operands ++ [argument] } rest
    | .long name value =>
      match rules.find? fun r => r.name == name with
      | none => .error (.unexpected argument)
      | some r =>
        match r.hasValue, value with
        | false, none => do scan rules stops (← a.addFlag r) rest
        | false, some _ => .error (.unexpected argument)
        | true, some v => do scan rules stops (← a.addValue r v) rest
        | true, none =>
          match rest with
          | [] => .error (.missingValue name)
          | v :: rest =>
            if ArgumentForm.of v = .operand then do scan rules stops (← a.addValue r v) rest
            else .error (.missingValue name)

/-- All arguments of a command. -/
def Arguments.read (rules : List OptionRule) (args : List String) : Except UsageError Arguments := do
  return (← scan rules false .none args).1

end SparqlConformance.CommandLine
