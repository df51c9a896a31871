import SparqlConformance.Machine.Calls
import SparqlConformance.World
/-!
# The world of a machine

A machine in memory as the world of a run.
-/
namespace SparqlConformance.Machine

def utilityPlaces : List Place := [["bin"], ["usr", "bin"]]

/-- The variables that programs find where nothing else is said. -/
def usualVariables : List (String × String) :=
  [("PATH", "/usr/local/sbin:/usr/local/bin:/usr/sbin:/usr/bin:/sbin:/bin"), ("HOME", "/root")]

/-- The files of a machine that has nothing but its utilities. -/
def usualTree : FileTree :=
  utilityPlaces.foldl
    (fun t place => Utility.all.foldl (fun t u => t.put (place ++ [u.name]) (.utility u))
      (t.makeDirectory place))
    ((((⟨[]⟩ : FileTree).makeDirectory ["tmp"]).makeDirectory ["root"]).makeFile ["dev", "null"] []
      false)

/-- A machine at its start, in a directory of its own. -/
def start (tree : FileTree) (home : Place) : Machine where
  tree := tree.makeDirectory home
  home
  clock := 0
  deadline := none
  streams := #[]
  count := 1000
  interrupted := false

def absolute (m : Machine) (p : Path) : Path := (FileTree.pathOf m.home).join p

/-- A name that no file of the machine has been given. -/
def freshName (number : Nat) (name : TemporaryName) : String :=
  let digits := String.ofList (Nat.toDigits 10 number)
  name.start ++ String.ofList (List.replicate (6 - digits.length) '0') ++ digits ++ name.finish

def createTemporary (dir? : Option Path) (name : TemporaryName) (bytes : List UInt8) :
    StateM Machine (Except String Path) := fun m =>
  let (number, m) := m.nextNumber
  let path := (m.absolute (dir?.getD ⟨"/tmp"⟩)).join ⟨freshName number name⟩
  match m.tree.locateNew? [] path with
  | some p => (.ok path, { m with tree := m.tree.put p (.file bytes false) })
  | none => (.error s!"No such file or directory (os error 2) at path \"{path.text}\"", m)

def removeFile (path : Path) : StateM Machine Unit := modify fun m =>
  match m.tree.locate? m.home path with
  | some p => if m.tree.isDirectory p then m else { m with tree := m.tree.remove p }
  | none => m

def writeFile (path : Path) (text : String) : StateM Machine (Except String Unit) := fun m =>
  match m.tree.locateNew? m.home path with
  | some p =>
    let executable := FileTree.isExecutable (m.tree.find? p)
    (.ok (), { m with tree := m.tree.put p (.file (Utf8.encode text.toList) executable) })
  | none => (.error "No such file or directory (os error 2)", m)

/-- What a run on a machine meets whose programs inherit some variables. -/
def world (inherited : List (String × String)) : World Machine where
  files m := m.tree.view m.home
  searchPath := inherited.lookup "PATH"
  call := call inherited
  isInterrupted m := (m.interrupted, m)
  time m := m.clock
  date _ := "1970-01-01T00:00:00Z"
  createTemporary
  remove := removeFile
  write := writeFile
  fileBound m := m.tree.nodes.length

end SparqlConformance.Machine
