import SparqlConformance.Manifest.Inclusion
import SparqlConformance.Tests.Case
/-!
# Suites

The tests of a manifest under a name. A suite runs in the directory of its manifest, and may have its own
programs, which are found before all others.
-/
namespace SparqlConformance

structure Suite where
  name : String
  directory : Path
  description : Option String
  /-- Where programs are searched first. -/
  programs : Option Path
  tests : List TestCase
  deriving DecidableEq, Repr, Inhabited

namespace Suite

def environmentOf (programs : Option Path) : Environment :=
  programs.toList.foldl Environment.searching .inherited

/-- The environment of every program that is called for a suite. -/
def environment (s : Suite) : Environment := environmentOf s.programs

/-- The directory of a manifest. -/
def directoryOf (manifest : Path) : Path :=
  match manifest.parent? with
  | some dir => if dir.text.isEmpty then "." else dir
  | none => "."

def testOf? (files : FileView) (settings : Settings) (e : ManifestEntry) : Option TestCase :=
  TestCase.ofEntry? e.index (files.settled (Manifest.source e.index)) e.id settings.runEntailment

variable {σ : Type}

def load (w : World σ) (settings : Settings) (name : String) (manifest : Path) :
    Preparation σ Suite := do
  let converter : Converter := ⟨settings.converter, .inherited, settings.timeout⟩
  let index ← Manifest.index w converter manifest
  let node ← ExceptT.mk (pure (Manifest.primaryNode index))
  let directory := directoryOf manifest
  let programs := (index.literal? node (Vocab.plan "path")).map fun path => directory.join ⟨path⟩
  let entries ← Manifest.load w { converter with environment := environmentOf programs } index
  let files ← w.view
  return { name, directory, description := index.literal? node (Vocab.rdfs "comment"), programs,
           tests := entries.filterMap (testOf? files settings) }

end Suite

end SparqlConformance
