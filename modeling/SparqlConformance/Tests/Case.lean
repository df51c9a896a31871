import SparqlConformance.Answers.Cardinality
import SparqlConformance.Manifest.Entries
import SparqlConformance.Manifest.Reference
import SparqlConformance.Tests.Kind
/-!
# Test cases

The tests that the entries of a manifest describe. An entry that has no name, or neither a query nor a
reason to skip it, describes no test.
-/
namespace SparqlConformance

structure TestCase where
  name : String
  /-- Names the test in reports. -/
  uri : String
  kind : TestKind
  query : Option Path
  execute : Bool
  expected : Expectation
  language : Language
  cardinality : Cardinality
  approved : Bool
  withdrawn : Bool
  entailmentRegime : Option String
  result : Option Path
  data : List Path
  namedGraphs : List Path
  extraFiles : List Path
  comment : Option String
  skipReason : Option String
  deriving DecidableEq, Repr, Inhabited

namespace TestCase

def isSkipped (t : TestCase) : Bool := t.expected == .skip

/-- The test as it is shown to people. -/
def text (t : TestCase) : String :=
  let file (words : String) (p : Path) : String := words ++ p.text
  s!"{t.name} ({t.kind.text})" ++ String.join (t.query.toList.map (file " on query "))
    ++ String.join (t.data.map (file " with data "))
    ++ String.join (t.namedGraphs.map (file " and graph data "))
    ++ String.join (t.result.toList.map (file " and expected result "))

/-- The part of an IRI after its last hash or slash. -/
def localName (iri : String) : String :=
  String.ofList (iri.toList.reverse.takeWhile fun c => c != '#' && c != '/').reverse

/-- The IRI of a test that has none: its name within the manifest, whose canonical path is given. -/
def uriFor (place : Path) (name : String) : String :=
  match Url.ofFilePath? place with
  | some url => url ++ "#" ++ String.ofList (Url.fragmentText name.toList)
  | none => place.text ++ "#" ++ name

/-- The files that the action of an entry names. -/
structure Action where
  query : Option Path
  data : List Path
  namedGraphs : List Path
  deriving DecidableEq, Repr

section reading

variable (index : TripleIndex)

def file? (t : Term) : Option Path := Manifest.resolve? (Manifest.source index) t

def files (subject : Term) (property : String) : List Path :=
  (index.objects subject property).filterMap (file? index)

/-- The file of a named graph: a blank node stands for the graph it points to. -/
def graphFile? (graph : Term) : Option Path :=
  match graph with
  | .blank _ => (index.object? graph (Vocab.update "graph")).bind (file? index)
  | _ => file? index graph

/-- Reads the action of an entry. A blank node describes queries with their data; anything else is the
query itself. -/
def action (node : Option Term) : Action :=
  match node with
  | none => ⟨none, [], []⟩
  | some (.blank label) =>
    let node := Term.blank label
    let query := (index.object? node (Vocab.query "query")).or
      (index.object? node (Vocab.update "request"))
    let graphs := index.objects node (Vocab.query "graphData")
      ++ index.objects node (Vocab.update "graphData")
    { query := query.bind (file? index)
      data := files index node (Vocab.query "data") ++ files index node (Vocab.update "data")
      namedGraphs := graphs.filterMap (graphFile? index) }
  | some node => ⟨file? index node, [], []⟩

def regimeOf (id : Term) (node : Option Term) : Option String :=
  let regime := Vocab.service "entailmentRegime"
  ((node.bind fun n => index.object? n regime).or (index.object? id regime)).map fun
    | .iri iri => iri
    | .literal l => l.value
    | .blank label => (Term.blank label).text

def hasApproval (id : Term) (value : String) : Bool :=
  index.contains id (Vocab.dawg "approval") (.iri (Vocab.dawg value))

/-- Why a test is not run; the first reason counts. -/
def skipReason? (id : Term) (kind : TestKind) (regime : Option String) (runEntailment : Bool) :
    Option String :=
  if kind.shouldSkip then some (kind.text ++ " tests are not supported")
  else if hasApproval index id "Withdrawn" then some "withdrawn"
  else if hasApproval index id "Rejected" then some "rejected"
  else if regime.isSome && !runEntailment then some "entailment regime tests are disabled"
  else none

def name? (id : Term) : Option String :=
  (index.literal? id (Vocab.manifest "name")).or
    (match id with
      | .iri iri => some (localName iri)
      | _ => none)

/-- Reads the test of an entry of a manifest; `place` is the canonical path of the manifest. -/
def ofEntry? (place : Path) (id : Term) (runEntailment : Bool) : Option TestCase :=
  match name? index id with
  | none => none
  | some name =>
    let kind := TestKind.ofTypes ((index.objects id (Vocab.rdf "type")).filterMap fun
      | .iri iri => some iri
      | _ => none)
    let node := index.object? id (Vocab.manifest "action")
    let action := action index node
    let regime := regimeOf index id node
    let skipReason := skipReason? index id kind regime runEntailment
    if skipReason.isNone && action.query.isNone then none
    else some {
      name
      uri := match id with
        | .iri iri => iri
        | _ => uriFor place name
      kind
      query := action.query
      execute := skipReason.isNone && kind.behavior.execute
      expected := if skipReason.isSome then .skip else kind.behavior.expected
      language := kind.behavior.language
      cardinality :=
        if index.contains id (Vocab.manifest "resultCardinality")
          (.iri (Vocab.manifest "LaxCardinality")) then .lax else .strict
      approved := hasApproval index id "Approved"
      withdrawn := hasApproval index id "Withdrawn"
      entailmentRegime := regime
      result := (index.object? id (Vocab.manifest "result")).bind (file? index)
      data := action.data
      namedGraphs := action.namedGraphs
      extraFiles := files index id (Vocab.plan "extraFile")
      comment := index.literal? id (Vocab.rdfs "comment")
      skipReason }

end reading

end TestCase

end SparqlConformance
