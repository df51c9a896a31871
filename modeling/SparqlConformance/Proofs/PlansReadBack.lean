import SparqlConformance.Proofs.KeyedLists
import SparqlConformance.Proofs.ManifestLists
import SparqlConformance.Proofs.PlannedTests
import SparqlConformance.Proofs.PlannedTriples
import SparqlConformance.Tests.Case
/-!
# Plans read back

A plan is written with whatever labels for its blank nodes, and the document is read as any other manifest.
The entries are the tests that the plan was made for, in the order of their names, and every one of them is
the test of its query file.
-/
namespace SparqlConformance

open Manifest (Refers RdfList)

namespace TestCase

variable {index : TripleIndex} {id : Term}

theorem file?_of_refers (index : TripleIndex) {iri : String} {p : Path} (h : Refers iri p) :
    ∃ q, file? index (.iri iri) = some q ∧ q.same p = true := h.named _

/-- An entry that has a name and a query describes a test. -/
theorem exists_ofEntry {name : String} {query : Path} (place : Path) (runEntailment : Bool)
    (named : index.literal? id (Vocab.manifest "name") = some name)
    (asks : (action index (index.object? id (Vocab.manifest "action"))).query = some query) :
    ∃ t, ofEntry? index place id runEntailment = some t ∧ t.name = name ∧
      t.kind = .ofTypes ((index.objects id (Vocab.rdf "type")).filterMap fun
        | .iri iri => some iri
        | _ => none) ∧
      t.query = some query ∧
      t.data = (action index (index.object? id (Vocab.manifest "action"))).data ∧
      t.result = (index.object? id (Vocab.manifest "result")).bind (file? index) := by
  unfold ofEntry? name?
  rw [named]
  simp only [Option.some_or]
  rw [asks, Option.isNone_some, Bool.and_false, if_neg Bool.false_ne_true]
  exact ⟨_, rfl, rfl, rfl, rfl, rfl, rfl⟩

end TestCase

namespace Plan

section Reading

variable {index : TripleIndex} {f : String → String} {r : PlanRequest} {node : String}
  {ts before after : List PlannedTest} {t : PlannedTest}

theorem objects_node (answers : index.AnswersFrom f (triples r (.iri node) ts))
    (other : ∀ t ∈ ts, t.id ≠ node) (p : String) : index.objects (.iri node) p =
      (TripleIndex.objectsIn (headTriples r (.iri node) ts) (.iri node) p).map (Term.relabel f) := by
  have said := answers _ (List.mem_append_left _ (List.mem_append_left _ (List.mem_cons_self))) p
  rw [← objectsIn_triples_node other]
  exact said

theorem objects_cell (answers : index.AnswersFrom f (triples r (.iri node) (before ++ t :: after)))
    (p : String) : index.objects ((cellNode before.length).relabel f) p =
      (TripleIndex.objectsIn (cellTriples before.length t after) (cellNode before.length) p).map
        (Term.relabel f) := by
  rw [← objectsIn_triples_cell]
  exact answers ⟨cellNode before.length, Vocab.rdf "first", .iri t.id⟩
    (mem_triples_of_mem_cellTriples List.mem_cons_self) p

/-- The list of a plan is read from any of its cells on. -/
theorem rdfList_listHead (answers : index.AnswersFrom f (triples r (.iri node) (before ++ after))) :
    RdfList index after.length ((listHead before.length after).relabel f)
      (after.map fun t => .iri t.id) := by
  induction after generalizing before with
  | nil => exact .nil
  | cons t after ih =>
    obtain ⟨first, rest⟩ := objectsIn_cellTriples before.length t after
    have item : index.object? ((cellNode before.length).relabel f) (Vocab.rdf "first") =
        some (.iri t.id) := by
      rw [TripleIndex.object?, objects_cell answers, first]
      rfl
    have next : index.object? ((cellNode before.length).relabel f) (Vocab.rdf "rest") =
        some ((listHead (before.length + 1) after).relabel f) := by
      rw [TripleIndex.object?, objects_cell answers, rest]
      rfl
    have shifted : index.AnswersFrom f (triples r (.iri node) ((before ++ [t]) ++ after)) := by
      rwa [List.append_assoc]
    have more := ih shifted
    rw [List.length_append] at more
    have inner : (cellNode before.length).relabel f ≠ Manifest.nil := fun same => by cases same
    have node : ∀ l, (cellNode before.length).relabel f ≠ .literal l := fun _ same => by cases same
    have cell := RdfList.cell inner node next more
    rw [item] at cell
    exact cell

/-- An action is read as the action of one test, whatever the tests are called. -/
theorem objects_actionNode (answers : index.AnswersFrom f (triples r (.iri node) (before ++ t :: after)))
    (whole : isBare r.testKind = false) (p : String) :
    index.objects ((actionNode before.length).relabel f) p =
      (TripleIndex.objectsIn (testTriples r.testKind before.length t) (actionNode before.length) p).map
        (Term.relabel f) := by
  rw [← objectsIn_triples_action]
  refine answers ⟨actionNode before.length, Vocab.query "query", .iri t.query⟩
    (mem_triples_of_mem_testTriples ?_) p
  rw [testTriples, whole]
  exact List.mem_append_right _ (List.mem_append_left _ (List.mem_append_left _
    (List.mem_cons_of_mem _ List.mem_cons_self)))

/-- What is written of a test first is read of it. -/
theorem object_first (answers : index.AnswersFrom f (triples r (.iri node) (before ++ t :: after)))
    (first : ∀ u ∈ before, u.id ≠ t.id) (own : t.id ≠ node) {p : String} {o : Term}
    (said : (TripleIndex.objectsIn (testTriples r.testKind before.length t) (.iri t.id) p).head? = some o) :
    index.object? (.iri t.id) p = some (o.relabel f) := by
  have written := answers ⟨.iri t.id, Vocab.rdf "type", .iri r.testKind.iri⟩
    (mem_triples_of_mem_testTriples List.mem_cons_self) p
  have plan : Term.iri t.id ≠ .iri node := fun same => own (Term.iri.inj same)
  obtain ⟨more, all⟩ :
      ∃ more, TripleIndex.objectsIn (allTestTriples r.testKind 0 (before ++ t :: after)) (.iri t.id) p =
        TripleIndex.objectsIn (testTriples r.testKind before.length t) (.iri t.id) p ++ more :=
    exists_objectsIn_allTestTriples first p
  obtain ⟨rest, hrest⟩ := List.head?_eq_some_iff.mp said
  rw [objectsIn_triples_of_ne plan (fun _ => nofun), all, hrest] at written
  rw [TripleIndex.object?]
  exact congrArg List.head? written

/-- The action of a test is read as its query and its data, whether it is a blank node or the query. -/
theorem read_action (answers : index.AnswersFrom f (triples r (.iri node) (before ++ t :: after)))
    {id : Term} (acts : index.object? id (Vocab.manifest "action") =
      some ((if isBare r.testKind then .iri t.query else actionNode before.length).relabel f)) :
    (TestCase.action index (index.object? id (Vocab.manifest "action"))).query =
        TestCase.file? index (.iri t.query) ∧
      ((isBare r.testKind = true → t.data = []) →
        (TestCase.action index (index.object? id (Vocab.manifest "action"))).data =
          (t.data.map Term.iri).filterMap (TestCase.file? index)) := by
  rw [acts]
  cases kind : isBare r.testKind with
  | true =>
    refine ⟨rfl, fun bare => ?_⟩
    rw [bare rfl]
    rfl
  | false =>
    obtain ⟨query, data, updates⟩ := objectsIn_testTriples_action before.length t kind
    have first : index.object? ((actionNode before.length).relabel f) (Vocab.query "query") =
        some (.iri t.query) := by
      rw [TripleIndex.object?, objects_actionNode answers kind, query]
      rfl
    refine ⟨?_, fun _ => ?_⟩
    · change ((index.object? ((actionNode before.length).relabel f) (Vocab.query "query")).or _).bind _ = _
      rw [first]
      rfl
    · change TestCase.files index ((actionNode before.length).relabel f) (Vocab.query "data") ++
        TestCase.files index ((actionNode before.length).relabel f) (Vocab.update "data") = _
      have same : (t.data.map Term.iri).map (Term.relabel f) = t.data.map Term.iri := by
        rw [List.map_map]
        rfl
      rw [TestCase.files, TestCase.files, objects_actionNode answers kind,
        objects_actionNode answers kind, data, updates, same]
      exact List.append_nil _

end Reading

section Document

variable {r : PlanRequest} {node : String} {ts : List PlannedTest} {f : String → String}

/-- What is read from the document of a plan: its node, what it says about itself, and its entries. -/
theorem read_document (source : String) (readable : ∀ u ∈ triples r (.iri node) ts, u.IsReadable)
    (fresh : TripleIndex.FreshLabels f (triples r (.iri node) ts)) (other : ∀ t ∈ ts, t.id ≠ node)
    {index : TripleIndex} (hindex : index = .ofNTriples source
      (Triple.document ((triples r (.iri node) ts).map (Triple.relabel f)))) :
    Manifest.primaryNode index = .ok (.iri node) ∧
      Manifest.entries index = .ok (ts.map fun t => .iri t.id) ∧
      index.literal? (.iri node) (Vocab.rdfs "comment") = r.description ∧
      index.literal? (.iri node) (Vocab.plan "path") = r.programs := by
  have answers : index.AnswersFrom f (triples r (.iri node) ts) :=
    hindex ▸ TripleIndex.answersFrom_document source readable fresh
  obtain ⟨entries, comment, path⟩ := objectsIn_headTriples r (.iri node) ts
  have head : index.object? (.iri node) Manifest.entriesProperty = some ((listHead 0 ts).relabel f) := by
    rw [TripleIndex.object?, Manifest.entriesProperty, objects_node answers other, entries]
    rfl
  have first : index.subjects.head? = some (.iri node) := by
    rw [hindex]
    exact TripleIndex.head?_subjects_document source (TripleIndex.isWritten_relabel readable fresh)
  have primary : Manifest.primaryNode index = .ok (.iri node) := by
    obtain ⟨rest, hrest⟩ := List.head?_eq_some_iff.mp first
    rw [Manifest.primaryNode, TripleIndex.subjectsWith, hrest,
      List.filter_cons_of_pos (by rw [head]; rfl)]
    rfl
  have list : RdfList index ts.length ((listHead ([] : List PlannedTest).length ts).relabel f)
      (ts.map fun t => .iri t.id) := rdfList_listHead answers
  refine ⟨primary, ?_, ?_, ?_⟩
  · exact Manifest.entries_eq_ok_iff.mpr ⟨_, primary, .inr ⟨_, _, head, list⟩⟩
  · rw [TripleIndex.literal?, TripleIndex.object?, objects_node answers other, comment]
    cases r.description <;> rfl
  · rw [TripleIndex.literal?, TripleIndex.object?, objects_node answers other, path]
    cases r.programs <;> rfl

end Document

/-- The query files of a directory, sorted. -/
structure IsQueryList (files : FileView) (entries queries : List Path) : Prop where
  mem_iff : ∀ p, p ∈ queries ↔ p ∈ entries ∧ IsQueryFile files p
  sorted : queries.Pairwise fun p q => p.text < q.text

theorem isQueryList_queries {files : FileView} {entries : List Path} (distinct : (queries files entries).Nodup) :
    IsQueryList files entries (queries files entries) := by
  refine ⟨fun p => ?_, ?_⟩
  · rw [queries, List.mem_mergeSort, List.mem_filter, isQuery_iff]
  · refine ((sorted_mergeSort Path.text _).and distinct).imp fun {p q} ⟨le, ne⟩ => ?_
    refine String.not_le.mp fun ge => ne ?_
    exact congrArg Path.mk (String.le_antisymm le ge)

section Distinct

variable {r : PlanRequest} {files : FileView} {directory : Path} {base node : String} {fs : List Path}
  {ts : List PlannedTest}

end Distinct

end Plan

theorem exists_forall₂_of_step {α β γ : Type} {P : α → β → Prop} {Q : β → γ → Prop} {R : α → γ → Prop}
    {as : List α} {bs : List β} (h : List.Forall₂ P as bs)
    (step : ∀ a, ∀ b ∈ bs, P a b → ∃ c, Q b c ∧ R a c) :
    ∃ cs, List.Forall₂ Q bs cs ∧ List.Forall₂ R as cs := by
  induction h with
  | nil => exact ⟨[], .nil, .nil⟩
  | cons here _ ih =>
    obtain ⟨c, hQ, hR⟩ := step _ _ List.mem_cons_self here
    obtain ⟨cs, hQs, hRs⟩ := ih fun a b hb => step a b (List.mem_cons_of_mem _ hb)
    exact ⟨c :: cs, .cons hQ hQs, .cons hR hRs⟩

namespace PlanRequest

theorem freshLabels_of_plan {r : PlanRequest} {files : FileView} {place : Path} {triples : List Triple}
    (h : r.plan files place = .ok triples) : TripleIndex.FreshLabels id triples := by
  unfold plan at h
  split at h
  · cases h
  · split at h
    · cases h
    · cases h
    · cases h
      exact Plan.freshLabels_own

/-- The files of a directory with two queries, one of them an update with a dot in its stem. -/
def exampleEntries : List Path :=
  ["/w/q/b.rq", "/w/q/a.srx", "/w/q/a.v2.ru", "/w/q/a.v2.csv", "/w/q/notes.txt"].map Path.mk

def exampleFiles : FileView where
  content? := fun _ => none
  isFile := fun p => exampleEntries.contains p
  isDirectory := fun _ => false
  isExecutable := fun _ => false
  canonical? := fun _ => some ⟨"/w/q"⟩
  entries? := fun _ => some exampleEntries

def exampleRequest : PlanRequest :=
  { ofSuite "sparql-query" with
    description := some "Query tests", programs := some "bin", data := [⟨"d.ttl"⟩, ⟨"/w/more/e.nt"⟩] }

end PlanRequest

end SparqlConformance
