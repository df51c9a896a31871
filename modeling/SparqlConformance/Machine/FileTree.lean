import SparqlConformance.Files.View
/-!
# File trees

The files of a machine in memory. A place is the list of the names that lead to it from the root; what has
no place in the list of nodes does not exist, except for the root.
-/
namespace SparqlConformance

/-- The programs that a machine knows without a script. -/
inductive Utility
  | cat
  | echo
  | false
  | kill
  | ls
  | printf
  | pwd
  | sh
  | sleep
  | tail
  | test
  | true
  deriving DecidableEq, Repr, Inhabited

namespace Utility

def name : Utility → String
  | cat => "cat"
  | echo => "echo"
  | false => "false"
  | kill => "kill"
  | ls => "ls"
  | printf => "printf"
  | pwd => "pwd"
  | sh => "sh"
  | sleep => "sleep"
  | tail => "tail"
  | test => "test"
  | true => "true"

def all : List Utility :=
  [cat, echo, false, kill, ls, printf, pwd, sh, sleep, tail, test, true]

end Utility

inductive FileNode
  | directory
  | file (content : List UInt8) (executable : Bool)
  | utility (u : Utility)
  deriving DecidableEq, Repr, Inhabited

abbrev Place := List String

structure FileTree where
  nodes : List (Place × FileNode)
  deriving DecidableEq, Repr, Inhabited

namespace FileTree

def find? (t : FileTree) (p : Place) : Option FileNode :=
  if p.isEmpty then some .directory else t.nodes.lookup p

def isDirectory (t : FileTree) (p : Place) : Bool := t.find? p == some .directory

/-- Puts a node at a place, instead of the one that was there. -/
def put (t : FileTree) (p : Place) (node : FileNode) : FileTree :=
  ⟨(p, node) :: t.nodes.filter fun n => n.1 != p⟩

def remove (t : FileTree) (p : Place) : FileTree := ⟨t.nodes.filter fun n => n.1 != p⟩

/-- Makes a directory and all that lead to it. -/
def makeDirectory (t : FileTree) (p : Place) : FileTree :=
  (List.range p.length).foldl
    (fun t n =>
      let dir := p.take (n + 1)
      if (t.find? dir).isSome then t else t.put dir .directory) t

def makeFile (t : FileTree) (p : Place) (content : List UInt8) (executable : Bool) : FileTree :=
  (t.makeDirectory p.dropLast).put p (.file content executable)

/-- The names in a directory, sorted. -/
def children (t : FileTree) (p : Place) : List String :=
  (t.nodes.filterMap fun n =>
    if n.1.dropLast == p && !n.1.isEmpty then n.1.getLast? else none).mergeSort
      fun a b => decide (a ≤ b)

/-- Walks along the pieces of a path; every piece needs a directory to start from. -/
def walk (t : FileTree) (p : Place) : List (List Char) → Option Place
  | [] => some p
  | piece :: rest =>
    if !t.isDirectory p then none
    else if piece.isEmpty || piece == ['.'] then walk t p rest
    else if piece == ['.', '.'] then walk t p.dropLast rest
    else
      let next := p ++ [String.ofList piece]
      if (t.find? next).isSome then walk t next rest else none

/-- Where walking along a path starts. -/
def startOf (directory : Place) (path : Path) : Place := if path.isAbsolute then [] else directory

/-- The place of something that exists. -/
def locate? (t : FileTree) (directory : Place) (path : Path) : Option Place :=
  if path.text.isEmpty then none
  else t.walk (startOf directory path) (Text.splitAt '/' path.text.toList)

/-- Whether a path leads through something that is no directory. -/
def crossesFile (t : FileTree) (directory : Place) (path : Path) : Bool :=
  let pieces := Text.splitAt '/' path.text.toList
  (List.range pieces.length).any fun n =>
    match t.walk (startOf directory path) (pieces.take n) with
    | some p => !t.isDirectory p
    | none => false

/-- The place where a file may be created or overwritten. -/
def locateNew? (t : FileTree) (directory : Place) (path : Path) : Option Place :=
  match t.locate? directory path with
  | some p => if t.isDirectory p then none else some p
  | none =>
    match (Text.splitAt '/' path.text.toList).reverse with
    | [] => none
    | last :: before =>
      if last.isEmpty || last == ['.'] || last == ['.', '.'] then none
      else
        (t.walk (startOf directory path) before.reverse).bind fun p =>
          if t.isDirectory p then some (p ++ [String.ofList last]) else none

def node? (t : FileTree) (directory : Place) (path : Path) : Option FileNode :=
  (t.locate? directory path).bind t.find?

def pathOf (p : Place) : Path := ⟨"/" ++ "/".intercalate p⟩

def isExecutable : Option FileNode → Bool
  | some (.file _ executable) => executable
  | some (.utility _) => true
  | _ => false

/-- The files as a program in a directory sees them. -/
def view (t : FileTree) (directory : Place) : FileView where
  content? path := match t.node? directory path with
    | some (.file content _) => some content
    | some (.utility _) => some []
    | _ => none
  isFile path := match t.node? directory path with
    | some (.file ..) | some (.utility _) => true
    | _ => false
  isDirectory path := t.node? directory path == some .directory
  isExecutable path := isExecutable (t.node? directory path)
  canonical? path := (t.locate? directory path).map pathOf
  entries? path := match t.locate? directory path with
    | some p =>
      if t.isDirectory p then some ((t.children p).map fun name => path.join ⟨name⟩) else none
    | none => none

end FileTree

end SparqlConformance
