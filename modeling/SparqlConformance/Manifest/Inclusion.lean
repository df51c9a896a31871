import SparqlConformance.Manifest.Conversion
import SparqlConformance.Manifest.Entries
import SparqlConformance.Manifest.Reference
/-!
# Inclusion

Manifests may include other manifests. The entries of a manifest are those of the included ones, in the
order of inclusion, and then its own. A manifest may be included more than once, but not by itself.
-/
namespace SparqlConformance

/-- An entry and the triples of the manifest that lists it. -/
structure ManifestEntry where
  id : Term
  index : TripleIndex
  deriving DecidableEq, Repr, Inhabited

/-- Steps of loading. They may end with an error, and in any case they leave a stack: the manifests that
are being loaded, given by their canonical paths. -/
abbrev Loading (σ : Type) := ExceptT SetupError (StateT (List Path) (StateM σ))

namespace Manifest

variable {σ : Type}

/-- The files that a manifest includes; items that name no file are left out. -/
def includedFiles (index : TripleIndex) : Except SetupError (List Path) := do
  let _ ← primaryNode index
  return (← includes index).filterMap (resolve? (source index))

def ownEntries (index : TripleIndex) : Except SetupError (List ManifestEntry) :=
  (entries index).map fun ids => ids.map fun id => ⟨id, index⟩

/-- Runs one step after the other and joins what they give. -/
def joinAll {α β : Type} (f : α → Loading σ (List β)) : List α → Loading σ (List β)
  | [] => pure []
  | a :: as => do
    let first ← f a
    let rest ← joinAll f as
    return first ++ rest

/-- A step that knows nothing of the stack. -/
def apart {α : Type} (step : Preparation σ α) : Loading σ α := ExceptT.mk (StateT.lift step.run)

/-- Runs a step with a manifest on the stack, unless it is there already. The manifest leaves the stack
however the step ends. -/
def visiting {α : Type} (place : Path) (step : Loading σ α) : Loading σ α := ExceptT.mk do
  if place ∈ (← get) then return .error (.inclusionCycle place)
  else
    modify (place :: ·)
    let result ← step.run
    modify (·.erase place)
    return result

/-- The entries of the files that a manifest includes, and then its own. -/
def gather (loadPath : Path → Loading σ (List ManifestEntry)) (index : TripleIndex) :
    Loading σ (List ManifestEntry) := do
  let files ← ExceptT.mk (pure (includedFiles index))
  let included ← joinAll loadPath files
  let own ← ExceptT.mk (pure (ownEntries index))
  return included ++ own

/-- Reads the manifest at a path and loads it. -/
def loadFile (w : World σ) (converter : Converter)
    (load : TripleIndex → Loading σ (List ManifestEntry)) (path : Path) :
    Loading σ (List ManifestEntry) := do
  let index ← apart (Manifest.index w converter path)
  load index

/-- All entries reached from a manifest. The bound limits how deep manifests may include others. -/
def loadWithin (w : World σ) (converter : Converter) :
    Nat → TripleIndex → Loading σ (List ManifestEntry)
  | bound, index => do
    let place := (← w.view).settled (source index)
    visiting place <| match bound with
    | 0 => throw (.inclusionCycle place)
    | bound + 1 => gather (loadFile w converter (loadWithin w converter bound)) index

/-- All entries reached from a manifest. No chain of inclusions is longer than there are files. -/
def load (w : World σ) (converter : Converter) (index : TripleIndex) :
    Preparation σ (List ManifestEntry) := ExceptT.mk do
  let bound := w.fileBound (← get) + 1
  let (result, _) ← (loadWithin w converter bound index).run.run []
  return result

end Manifest

end SparqlConformance
