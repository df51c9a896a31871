import SparqlConformance.Files.Path
/-!
# Setup errors

What prevents a suite from being prepared. Problems of a single test are never errors of this kind;
they become outcomes.
-/
namespace SparqlConformance

inductive SetupError
  /-- An external tool is missing or did not do its work. -/
  | unusableTool (tool reason : String)
  /-- No node of the manifest has entries or includes other manifests. -/
  | noManifestNode (manifest : Path)
  /-- A list of the manifest does not end. -/
  | unterminatedList (manifest : Path) (head : String)
  /-- A manifest includes itself, maybe through others. -/
  | inclusionCycle (manifest : Path)
  /-- The build tool did not list the suites or did not print a plan. -/
  | buildFailed (command : String) (directory : Path) (reason : String)
  /-- The run was interrupted while suites were being prepared. -/
  | interrupted
  /-- A file or directory could not be used. -/
  | inaccessible (reason : String)
  deriving DecidableEq, Repr, Inhabited

def SetupError.message : SetupError → String
  | unusableTool tool reason => s!"{tool} is not usable: {reason}"
  | noManifestNode manifest => s!"{manifest.text}: no manifest node with entries or include found"
  | unterminatedList manifest head =>
    s!"{manifest.text}: the RDF list starting at {head} is not terminated by rdf:nil"
  | inclusionCycle manifest => s!"{manifest.text}: manifest inclusion cycle"
  | buildFailed command directory reason => s!"{command} failed in {directory.text}: {reason}"
  | interrupted => "interrupted"
  | inaccessible reason => reason

end SparqlConformance
