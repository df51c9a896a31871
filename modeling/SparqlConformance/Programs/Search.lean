import SparqlConformance.Files.View
import SparqlConformance.Programs.Command
/-!
# Search

Where a program is found: one that is named with a directory there, any other in the first directory of
the search path that has it.
-/
namespace SparqlConformance

/-- Whether a path leads through a directory. -/
def Path.isNested (p : Path) : Bool := 1 < p.names.length + if p.isAbsolute then 1 else 0

/-- The directories in which programs are searched; none without any search path. -/
def Environment.directories? (env : Environment) (inherited : Option String) : Option (List Path) :=
  ((env.searchPath? (inherited.getD "")).or inherited).map searchDirectories

def findProgram? (files : FileView) (inherited : Option String) (env : Environment)
    (program : Path) : Option Path :=
  if program.isNested then (if files.isExecutable program then some program else none)
  else (env.directories? inherited).bind fun dirs =>
    (dirs.map fun dir => dir.join program).find? files.isExecutable

end SparqlConformance
