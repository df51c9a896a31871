import SparqlConformance.Files.Url
import SparqlConformance.Files.View
import SparqlConformance.Manifest.Error
import SparqlConformance.Rdf.Iri
import SparqlConformance.Rdf.Term
import SparqlConformance.Rdf.Vocabulary
import SparqlConformance.Tests.Kind
/-!
# Plans

Manifests made from directories: each query file becomes a test of the same kind, and the file beside it
that is called like the query and has the extension of a result is what the test expects. Plans are written
as N-Triples, which every reader of RDF understands.
-/
namespace SparqlConformance

/-- What a plan is to say besides the tests that a directory holds. -/
structure PlanRequest where
  suite : String
  /-- The kind of all tests; without a known one the name of the suite decides. -/
  kind : Option TestKind
  fallback : TestKind
  description : Option String
  /-- Where the suite finds its own programs. -/
  programs : Option String
  /-- The default graph of all tests. -/
  data : List Path
  deriving DecidableEq, Repr, Inhabited

namespace PlanRequest

def ofSuite (suite : String) : PlanRequest := ⟨suite, none, .queryEvaluation, none, none, []⟩

def testKind (r : PlanRequest) : TestKind := .guess r.kind r.suite r.fallback

end PlanRequest

/-- A test of a plan; its files are given by their IRIs. -/
structure PlannedTest where
  name : String
  id : String
  query : String
  data : List String
  result : Option String
  deriving DecidableEq, Repr, Inhabited

namespace Plan

open Vocab (manifest rdf)

def queryExtensions : List String := ["rq", "ru"]

def resultExtensions : List String := ["srx", "srj", "csv", "tsv", "ttl", "nt"]

def fileIri? (p : Path) : Option String := (Url.ofFilePath? p).filter isIri

def isQuery (files : FileView) (p : Path) : Bool :=
  files.isFile p && p.extension?.any fun e => queryExtensions.contains e

/-- The query files of a directory in the order of their names. -/
def queries (files : FileView) (entries : List Path) : List Path :=
  (entries.filter (isQuery files)).mergeSort fun p q => decide (p.text ≤ q.text)

/-- The file that holds the expected result of a query. -/
def result? (files : FileView) (query : Path) : Option Path :=
  (resultExtensions.map query.withExtension).find? files.isFile

/-- Tests that only look at the query itself. -/
def isBare (kind : TestKind) : Bool := kind.isSyntax || kind == .warning

/-- The test of a query; files whose names make no IRI are left out. -/
def test? (files : FileView) (directory : Path) (base : String) (r : PlanRequest)
    (query : Path) : Option PlannedTest := do
  let name ← query.fileStem?
  let id ← some (base ++ name) |>.filter isIri
  let iri ← fileIri? query
  if isBare r.testKind then some ⟨name, id, iri, [], none⟩
  else some ⟨name, id, iri, r.data.filterMap fun d => fileIri? (directory.join d),
    (result? files query).bind fileIri?⟩

def actionNode (n : Nat) : Term := .blank ("action" ++ toString n)

def cellNode (n : Nat) : Term := .blank ("cell" ++ toString n)

/-- The triples of the test with a given number. -/
def testTriples (kind : TestKind) (n : Nat) (t : PlannedTest) : List Triple :=
  let id := Term.iri t.id
  [⟨id, rdf "type", .iri kind.iri⟩, ⟨id, manifest "name", .plain t.name⟩]
    ++ if isBare kind then [⟨id, manifest "action", .iri t.query⟩]
      else [⟨id, manifest "action", actionNode n⟩,
          ⟨actionNode n, Vocab.query "query", .iri t.query⟩]
        ++ t.data.map (fun d => ⟨actionNode n, Vocab.query "data", .iri d⟩)
        ++ t.result.toList.map fun r => ⟨id, manifest "result", .iri r⟩

def allTestTriples (kind : TestKind) : Nat → List PlannedTest → List Triple
  | _, [] => []
  | n, t :: ts => testTriples kind n t ++ allTestTriples kind (n + 1) ts

/-- Where the list of the tests from a given number on starts. -/
def listHead (n : Nat) : List PlannedTest → Term
  | [] => .iri (rdf "nil")
  | _ :: _ => cellNode n

/-- The cells of the list of tests, the last one first. -/
def listTriples : Nat → List PlannedTest → List Triple
  | _, [] => []
  | n, t :: ts =>
    listTriples (n + 1) ts
      ++ [⟨cellNode n, rdf "first", .iri t.id⟩, ⟨cellNode n, rdf "rest", listHead (n + 1) ts⟩]

/-- What a plan says about itself. -/
def headTriples (r : PlanRequest) (node : Term) (ts : List PlannedTest) : List Triple :=
  [⟨node, rdf "type", .iri (manifest "Manifest")⟩, ⟨node, manifest "entries", listHead 0 ts⟩]
    ++ r.description.toList.map (fun d => ⟨node, Vocab.rdfs "comment", .plain d⟩)
    ++ r.programs.toList.map fun p => ⟨node, Vocab.plan "path", .plain p⟩

def triples (r : PlanRequest) (node : Term) (ts : List PlannedTest) : List Triple :=
  headTriples r node ts ++ allTestTriples r.testKind 0 ts ++ listTriples 0 ts

end Plan

/-- The plan of the query files that are directly in a directory. -/
def PlanRequest.plan (r : PlanRequest) (files : FileView) (directory : Path) :
    Except SetupError (List Triple) :=
  match files.canonical? directory with
  | none => .error (.inaccessible s!"{directory.text} does not exist")
  | some directory =>
    match Url.ofDirectory? directory, files.entries? directory with
    | none, _ => .error (.noManifestNode directory)
    | some _, none => .error (.inaccessible s!"{directory.text} can not be listed")
    | some url, some entries =>
      let node := url ++ "manifest"
      let tests := (Plan.queries files entries).filterMap (Plan.test? files directory (node ++ "#") r)
      .ok (Plan.triples r (.iri node) tests)

end SparqlConformance
