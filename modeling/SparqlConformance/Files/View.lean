import SparqlConformance.Files.Path
/-!
# File views

The files of a system at one moment, as far as programs are told about them. Relative paths start from
the working directory of the program that asks.
-/
namespace SparqlConformance

structure FileView where
  /-- The content of a file that can be read. -/
  content? : Path → Option (List UInt8)
  isFile : Path → Bool
  isDirectory : Path → Bool
  /-- Whether a path names a file that may be run. -/
  isExecutable : Path → Bool
  /-- The absolute path, without detours, of something that exists. -/
  canonical? : Path → Option Path
  /-- What is directly in a directory, in any order. -/
  entries? : Path → Option (List Path)

namespace FileView

/-- The canonical path if there is one, else the path itself. -/
def settled (files : FileView) (p : Path) : Path := (files.canonical? p).getD p

end FileView

end SparqlConformance
