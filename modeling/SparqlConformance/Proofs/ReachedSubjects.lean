import SparqlConformance.Proofs.FlatTriples
import SparqlConformance.Suites.Suite
/-!
# Reached subjects

The test of an entry is read from what is said of a few subjects: the entry, its action, and the blank nodes
that stand for the named graphs of the action. Indexes that tell the same of these subjects describe the same
test, whatever else they tell, and in whatever order lines about different subjects stand.
-/
namespace SparqlConformance

namespace TripleIndex

/-- Two indexes tell the same of a subject, in the same order. -/
def Agree (index index' : TripleIndex) (s : Term) : Prop := index.properties s = index'.properties s

section Lookups

variable {index index' : TripleIndex} {s : Term}

theorem Agree.objects (h : index.Agree index' s) (p : String) : index.objects s p = index'.objects s p := by
  unfold TripleIndex.objects
  rw [h]

theorem Agree.object? (h : index.Agree index' s) (p : String) : index.object? s p = index'.object? s p := by
  unfold TripleIndex.object?
  rw [h.objects]

theorem Agree.contains (h : index.Agree index' s) (p : String) (o : Term) :
    index.contains s p o = index'.contains s p o := by
  unfold TripleIndex.contains
  rw [h]

theorem Agree.literal? (h : index.Agree index' s) (p : String) :
    index.literal? s p = index'.literal? s p := by
  unfold TripleIndex.literal?
  rw [h.object?]

/-- Indexes agree on a subject if the triples about it were put into them in one order. -/
theorem Holds.agree {ts us : List Triple} (h : index.Holds ts) (h' : index'.Holds us)
    (same : (ts.filter fun t => t.subject = s) = us.filter fun t => t.subject = s) :
    index.Agree index' s := by
  rw [Agree, h.properties, h'.properties, same]

end Lookups

end TripleIndex

namespace TestCase

open TripleIndex (Agree)

/-- What an action gives for the graphs of its test. -/
def graphTerms (index : TripleIndex) (node : Term) : List Term :=
  index.objects node (Vocab.query "graphData") ++ index.objects node (Vocab.update "graphData")

/-- The subjects that the test of an entry is read from: the entry, its action, and the blank nodes among
the graphs of the action. -/
def reached (index : TripleIndex) (id : Term) : List Term :=
  id :: (index.object? id (Vocab.manifest "action")).toList.flatMap fun node =>
    node :: (graphTerms index node).filter fun
      | .blank _ => true
      | _ => false

section Readers

variable {index index' : TripleIndex} {id node : Term}

theorem mem_reached_action (h : index.object? id (Vocab.manifest "action") = some node) :
    node ∈ reached index id := by
  simp [reached, h]

theorem mem_reached_graph (h : index.object? id (Vocab.manifest "action") = some node) {label : String}
    (graph : .blank label ∈ graphTerms index node) : .blank label ∈ reached index id := by
  simp [reached, h, graph]

/-- Files are named by terms in a way that depends on where the manifest is, and on nothing in it. -/
theorem file?_congr (source : index.source = index'.source) : file? index = file? index' := by
  funext t
  rw [file?, file?, Manifest.source, Manifest.source, source]

theorem files_congr (source : index.source = index'.source) (h : index.Agree index' node) (p : String) :
    files index node p = files index' node p := by
  rw [files, files, h.objects, file?_congr source]

theorem graphFile?_congr (source : index.source = index'.source) {graph : Term}
    (h : ∀ label, graph = .blank label → index.Agree index' graph) :
    graphFile? index graph = graphFile? index' graph := by
  unfold graphFile?
  split
  · rename_i label
    rw [(h label rfl).object?, file?_congr source]
  · rw [file?_congr source]

/-- An action is read from what is said of it and of its graphs. -/
theorem action_congr (source : index.source = index'.source) {node? : Option Term}
    (here : ∀ node, node? = some node → index.Agree index' node)
    (graphs : ∀ node label, node? = some node → .blank label ∈ graphTerms index node →
      index.Agree index' (.blank label)) :
    action index node? = action index' node? := by
  cases node? with
  | none => rfl
  | some node =>
    cases node with
    | iri iri => simp only [action, file?_congr source]
    | literal l => simp only [action, file?_congr source]
    | blank label =>
      have agree := here _ rfl
      have same : graphTerms index (.blank label) = graphTerms index' (.blank label) := by
        rw [graphTerms, graphTerms, agree.objects, agree.objects]
      have named : (graphTerms index (.blank label)).filterMap (graphFile? index) =
          (graphTerms index' (.blank label)).filterMap (graphFile? index') := by
        rw [← same]
        refine List.filterMap_congr fun graph hgraph => graphFile?_congr source ?_
        rintro l rfl
        exact graphs _ l rfl hgraph
      unfold graphTerms at named
      simp only [action, agree.object?, files_congr source agree, file?_congr source, named]

theorem regimeOf_congr (entry : index.Agree index' id) {node? : Option Term}
    (here : ∀ node, node? = some node → index.Agree index' node) :
    regimeOf index id node? = regimeOf index' id node? := by
  unfold regimeOf
  cases node? with
  | none => simp only [Option.bind_none, entry.object?]
  | some node => simp only [Option.bind_some, (here node rfl).object?, entry.object?]

theorem hasApproval_congr (entry : index.Agree index' id) (value : String) :
    hasApproval index id value = hasApproval index' id value :=
  entry.contains _ _

theorem skipReason?_congr (entry : index.Agree index' id) (kind : TestKind) (regime : Option String)
    (runEntailment : Bool) :
    skipReason? index id kind regime runEntailment = skipReason? index' id kind regime runEntailment := by
  unfold skipReason?
  simp only [hasApproval_congr entry]

theorem name?_congr (entry : index.Agree index' id) : name? index id = name? index' id := by
  unfold name?
  rw [entry.literal?]

/-- Indexes that agree on the reached subjects describe the same test. -/
theorem ofEntry?_congr (source : index.source = index'.source)
    (agree : ∀ s ∈ reached index id, index.Agree index' s) (place : Path) (runEntailment : Bool) :
    ofEntry? index place id runEntailment = ofEntry? index' place id runEntailment := by
  have entry : index.Agree index' id := agree id List.mem_cons_self
  have node : index.object? id (Vocab.manifest "action") = index'.object? id (Vocab.manifest "action") :=
    entry.object? _
  have here : ∀ node, index'.object? id (Vocab.manifest "action") = some node →
      index.Agree index' node := fun n hn =>
    agree n (mem_reached_action (node.trans hn))
  -- Graphs that are no blank nodes are files by themselves, and nothing is looked up for them.
  have graphs : ∀ node label, index'.object? id (Vocab.manifest "action") = some node →
      .blank label ∈ graphTerms index node → index.Agree index' (.blank label) := fun n label hn graph =>
    agree _ (mem_reached_graph (node.trans hn) graph)
  unfold ofEntry?
  simp only [name?_congr entry, node, entry.objects, action_congr source here graphs,
    regimeOf_congr entry here, skipReason?_congr entry, entry.contains, hasApproval_congr entry,
    entry.object?, file?_congr source, files_congr source entry, entry.literal?]

end Readers

/-- Whether a line holds a triple about a subject. -/
def isAbout (s : Term) (line : List Char) : Bool :=
  (TripleIndex.tripleOfLine line).any fun t => t.subject = s

/-- The triples about a subject come from the lines about it, in their order. -/
theorem filter_subject_filterMap (s : Term) (ls : List (List Char)) :
    ((ls.filterMap TripleIndex.tripleOfLine).filter fun t => t.subject = s) =
      (ls.filter (isAbout s)).filterMap TripleIndex.tripleOfLine := by
  induction ls with
  | nil => rfl
  | cons l ls ih =>
    cases read : TripleIndex.tripleOfLine l with
    | none =>
      have about : isAbout s l = false := by simp [isAbout, read]
      rw [List.filterMap_cons_none read, List.filter_cons_of_neg (by simp [about]), ih]
    | some t =>
      rw [List.filterMap_cons_some read]
      by_cases here : t.subject = s
      · have about : isAbout s l = true := by simp [isAbout, read, here]
        rw [List.filter_cons_of_pos (by simpa using here), List.filter_cons_of_pos about,
          List.filterMap_cons_some read, ih]
      · have about : isAbout s l = false := by simp [isAbout, read, here]
        rw [List.filter_cons_of_neg (by simpa using here), List.filter_cons_of_neg (by simp [about]), ih]

/-- Two indexes describe the same test of an entry, or both describe none, wherever the files are and
whichever tests are run. -/
def DescribeAlike (index index' : TripleIndex) (id : Term) : Prop :=
  ∀ files settings, Suite.testOf? files settings ⟨id, index⟩ = Suite.testOf? files settings ⟨id, index'⟩

theorem describeAlike_of_agree {index index' : TripleIndex} {id : Term}
    (source : index.source = index'.source) (agree : ∀ s ∈ reached index id, index.Agree index' s) :
    DescribeAlike index index' id := by
  intro files settings
  have place : Manifest.source index = Manifest.source index' := congrArg Path.mk source
  rw [Suite.testOf?, Suite.testOf?, place]
  exact ofEntry?_congr source agree _ _

/-- Tests are read in isolation: what two manifests in one place say of other subjects makes no difference to
a test, neither in their indexes, nor in the triples that were put into them, nor in the lines that these were
read from. -/
theorem read_in_isolation :
    (∀ (index index' : TripleIndex) (id : Term), index.source = index'.source →
      (∀ s ∈ reached index id, index.properties s = index'.properties s) →
      DescribeAlike index index' id) ∧
    (∀ (source : String) (ts us : List Triple) (id : Term),
      let index := (TripleIndex.empty source).insertAll ts
      let index' := (TripleIndex.empty source).insertAll us
      (∀ s ∈ reached index id,
        (ts.filter fun t => t.subject = s) = us.filter fun t => t.subject = s) →
      DescribeAlike index index' id) ∧
    ∀ (source text text' : String) (id : Term),
      let index := TripleIndex.ofNTriples source text
      let index' := TripleIndex.ofNTriples source text'
      (∀ s ∈ reached index id, (Text.lines text.toList).filter (isAbout s) =
        (Text.lines text'.toList).filter (isAbout s)) →
      DescribeAlike index index' id := by
  have inserted : ∀ (source : String) (ts us : List Triple) (id : Term),
      (∀ s ∈ reached ((TripleIndex.empty source).insertAll ts) id,
        (ts.filter fun t => t.subject = s) = us.filter fun t => t.subject = s) →
      DescribeAlike ((TripleIndex.empty source).insertAll ts) ((TripleIndex.empty source).insertAll us)
        id := by
    intro source ts us id same
    have holds := (TripleIndex.holds_empty source).insertAll ts
    have holds' := (TripleIndex.holds_empty source).insertAll us
    refine describeAlike_of_agree ?_ fun s hs => holds.agree holds' (same s hs)
    rw [TripleIndex.source_insertAll, TripleIndex.source_insertAll]
  refine ⟨fun index index' id => describeAlike_of_agree, inserted, fun source text text' id same => ?_⟩
  refine inserted source _ _ id fun s hs => ?_
  rw [TripleIndex.triplesOfText, TripleIndex.triplesOfText, filter_subject_filterMap,
    filter_subject_filterMap, same s hs]

/-- What is said of a test with a named graph. -/
def graphTest : List Triple :=
  [⟨.blank "t", Vocab.manifest "name", .plain "one"⟩,
    ⟨.blank "t", Vocab.manifest "action", .blank "a"⟩,
    ⟨.blank "a", Vocab.query "query", .iri "t:/q.rq"⟩,
    ⟨.blank "a", Vocab.query "graphData", .blank "g"⟩,
    ⟨.blank "g", Vocab.update "graph", .iri "t:/g.ttl"⟩]

/-- The same between triples about others, one of which has an action of its own. -/
def crowdedTest : List Triple :=
  [⟨.blank "g", Vocab.update "graph", .iri "t:/g.ttl"⟩,
    ⟨.iri "t:u", Vocab.manifest "action", .blank "h"⟩,
    ⟨.blank "a", Vocab.query "query", .iri "t:/q.rq"⟩,
    ⟨.blank "t", Vocab.manifest "name", .plain "one"⟩,
    ⟨.blank "h", Vocab.query "query", .iri "t:/r.rq"⟩,
    ⟨.blank "a", Vocab.query "graphData", .blank "g"⟩,
    ⟨.blank "t", Vocab.manifest "action", .blank "a"⟩]

/-- One test, told in two manifests that have nothing else in common, as they are read and as they are
written. -/
theorem read_in_isolation_crowded :
    let index := (TripleIndex.empty "/d/m.nt").insertAll graphTest
    let index' := (TripleIndex.empty "/d/m.nt").insertAll crowdedTest
    reached index (.blank "t") = [.blank "t", .blank "a", .blank "g"] ∧
      ( ofEntry? index ⟨"/d/m.nt"⟩ (.blank "t") false).map (fun t => (t.query, t.namedGraphs)) =
        some (some ⟨"/d/q.rq"⟩, [⟨"/d/g.ttl"⟩]) ∧
      DescribeAlike index index' (.blank "t") ∧
      DescribeAlike (.ofNTriples "/d/m.nt" (Triple.document graphTest))
        (.ofNTriples "/d/m.nt" (Triple.document crowdedTest)) (.blank "t") := by
  obtain ⟨indexes, _, texts⟩ := read_in_isolation
  refine ⟨by decide +kernel, by decide +kernel, indexes _ _ _ rfl (by decide +kernel), texts _ _ _ _ ?_⟩
  simp only [TripleIndex.ofNTriples, TripleIndex.triplesOfText, Triple.document, String.toList_ofList]
  decide +kernel

end TestCase

end SparqlConformance
