import SparqlConformance.Format.Json.Value
import SparqlConformance.Machine.World
/-!
# Descriptions of machines

A machine as a JSON document: the directory in which it starts, texts for its files and its programs,
whose names are relative to that directory or absolute, and variables of the environment.
-/
namespace SparqlConformance

structure MachineDescription where
  directory : String
  files : List (String × String)
  programs : List (String × String)
  vars : List (String × String)
  deriving DecidableEq, Repr, Inhabited

namespace MachineDescription

/-- A machine with nothing of its own. -/
def plain : MachineDescription := ⟨"/work", [], [], []⟩

/-- The members of an object whose values are texts. -/
def texts : Json → Option (List (String × String))
  | .object members => members.mapM fun
    | (name, .string text) => some (name, text)
    | _ => none
  | _ => none

def member? (d : MachineDescription) : String × Json → Option MachineDescription
  | ("directory", .string directory) => some { d with directory }
  | ("files", value) => (texts value).map fun files => { d with files }
  | ("programs", value) => (texts value).map fun programs => { d with programs }
  | ("variables", value) => (texts value).map fun vars => { d with vars }
  | _ => none

def ofJson? : Json → Option MachineDescription
  | .object members => members.foldlM member? plain
  | _ => none

/-- Reads a description; no text at all describes a plain machine. -/
def ofText? (s : String) : Option MachineDescription :=
  if (Text.trim s.toList).isEmpty then some plain else (Json.ofText? s.toList).bind ofJson?

/-- The names that lead from the root to a path. -/
def placeOf (path : Path) : Place := path.names.map String.ofList

def home (d : MachineDescription) : Place := placeOf ⟨d.directory⟩

def addFile (d : MachineDescription) (executable : Bool) (t : FileTree) (file : String × String) :
    FileTree :=
  t.makeFile (placeOf ((⟨d.directory⟩ : Path).join ⟨file.1⟩)) (Utf8.encode file.2.toList) executable

def machine (d : MachineDescription) : Machine :=
  let files := d.files.foldl (d.addFile false) Machine.usualTree
  Machine.start (d.programs.foldl (d.addFile true) files) d.home

/-- The variables of the environment; those of the description come first. -/
def environment (d : MachineDescription) : List (String × String) :=
  d.vars ++ Machine.usualVariables.filter fun v => !(d.vars.map Prod.fst).contains v.1

end MachineDescription

end SparqlConformance
