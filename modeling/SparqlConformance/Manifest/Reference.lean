import SparqlConformance.Files.Url
import SparqlConformance.Rdf.Term
/-!
# References to files

How a term of a manifest names a file. A `file:` IRI names that file, any other IRI the file beside the
manifest that is called like its last segment, and a literal a file by its path from there.
-/
namespace SparqlConformance.Manifest

/-- The directory that relative references start from. -/
def base (manifest : Path) : Path := manifest.parent?.getD ⟨""⟩

/-- The file name of an IRI that is not a `file:` IRI. -/
def remoteName? (url : Url) : Option (List Char) :=
  (url.segments?.bind List.getLast?).filter fun name => !name.isEmpty

def resolve? (manifest : Path) : Term → Option Path
  | .iri iri =>
    match Url.read? iri.toList with
    | none => none
    | some url =>
      if Url.schemeKind url.scheme = .file then url.filePath?
      else (remoteName? url).map fun name => (base manifest).join ⟨String.ofList name⟩
  | .literal l => if l.value.isEmpty then none else some ((base manifest).join ⟨l.value⟩)
  | .blank _ => none

end SparqlConformance.Manifest
