import SparqlConformance.Proofs.PlansReadBack
/-!
# Queries of one stem

A plan calls its tests after the stems of their files, so an update that is called like a query gets the IRI
of the query. The test is then listed twice, and both times it is read with the action that was written
first: the query of the first file is asked again, and the other one is lost. A plan tells the query files
of a directory apart exactly if no two of them have the same stem.
-/
namespace SparqlConformance

open Manifest (Refers)

/-- The files of a directory that have some names. -/
def Path.children (directory : Path) (names : List String) : List Path :=
  names.map fun name => directory.join ⟨name⟩

/-- The tests of all entries of a manifest. -/
def TestCase.AreRead (index : TripleIndex) (manifest : Path) (runEntailment : Bool) (tests : List TestCase) :
    Prop :=
  ∃ ids, Manifest.entries index = .ok ids ∧
    List.Forall₂ (fun id t => ofEntry? index manifest id runEntailment = some t) ids tests

theorem TestCase.uri_of_ofEntry? {index : TripleIndex} {place : Path} {iri : String} {runEntailment : Bool}
    {t : TestCase} (h : ofEntry? index place (.iri iri) runEntailment = some t) : t.uri = iri := by
  unfold ofEntry? at h
  split at h
  · cases h
  · dsimp only at h
    split at h
    · cases h
    · rw [← Option.some.inj h]

/-- What is found in two lists by the same test is related like their members. -/
theorem rel_find? {α β : Type} {R : α → β → Prop} {p : α → Bool} {q : β → Bool} {as : List α} {bs : List β}
    (h : List.Forall₂ R as bs) (agree : ∀ a b, R a b → p a = q b) :
    Option.Rel R (as.find? p) (bs.find? q) := by
  induction h with
  | nil => exact .none
  | @cons a b _ _ here _ ih =>
    rw [List.find?_cons, List.find?_cons, agree a b here]
    cases q b with
    | true => exact .some here
    | false => exact ih

theorem PlannedTest.Asks.id_eq_iff {base : String} {file file' : Path} {t u : PlannedTest}
    (hu : u.Asks base file') (ht : t.Asks base file) : u.id = t.id ↔ file'.fileStem? = file.fileStem? := by
  rw [hu.id, ht.id, hu.name, ht.name, Option.some_inj, String.append_right_inj]

namespace Plan

/-- A directory with a plain path that lists files by their names; the names of its query files are plain. -/
structure IsListing (files : FileView) (directory : Path) (names : List String) : Prop where
  absolute : directory.isAbsolute = true
  plain : directory.IsPlain
  listed : files.entries? directory = some (directory.children names)
  distinct : names.Nodup
  named : ∀ name ∈ names, IsQueryFile files (directory.join ⟨name⟩) → IsFileName name.toList

/-- No two query files of a directory have the same stem. -/
def HasOwnStems (files : FileView) (entries : List Path) : Prop :=
  ∀ p ∈ entries, ∀ q ∈ entries, IsQueryFile files p → IsQueryFile files q →
    p.fileStem? = q.fileStem? → p = q

instance (files : FileView) (entries : List Path) : Decidable (HasOwnStems files entries) :=
  inferInstanceAs (Decidable (∀ p ∈ entries, ∀ q ∈ entries, _ → _ → _ → _))

/-- Whether a test asks the query of a file. -/
def asks (file : Path) (t : TestCase) : Bool := t.query.any fun q => q.same file

/-- Tests with IRIs of their own, one for each query file. -/
structure TellsApart (files : FileView) (entries : List Path) (tests : List TestCase) : Prop where
  uris : (tests.map TestCase.uri).Nodup
  once : ∀ file ∈ entries, IsQueryFile files file → tests.countP (asks file) = 1

/-- The first file that is called like a given one. -/
def firstOfStem? (fs : List Path) (file : Path) : Option Path :=
  fs.find? fun p => p.fileStem? == file.fileStem?

/-- The test of a file is called like it, and asks the first query of that name. -/
structure AsksFirst (base : String) (fs : List Path) (file : Path) (t : TestCase) : Prop where
  name : file.fileStem? = some t.name
  uri : t.uri = base ++ t.name
  query : ∃ first q, firstOfStem? fs file = some first ∧ t.query = some q ∧ q.same first = true

section Listings

variable {files : FileView} {directory : Path} {names : List String}

theorem steps_of_isFileName {name : String} (file : IsFileName name.toList) :
    (⟨name⟩ : Path).isAbsolute = false ∧ (⟨name⟩ : Path).steps = [name.toList] := by
  have slash : '/' ∉ name.toList := file.not_mem (by decide)
  refine ⟨?_, ?_⟩
  · rw [Bool.eq_false_iff, Ne, Path.isAbsolute_iff]
    rintro ⟨s, hs⟩
    exact slash (by rw [hs]; exact List.mem_cons_self)
  · unfold Path.steps
    rw [splitAt_of_not_mem slash, List.filter_cons_of_pos (by rw [file.busy]; rfl), List.filter_nil]

/-- A file of a directory is one step away. -/
theorem steps_join_of_isFileName (absolute : directory.isAbsolute = true) {name : String}
    (file : IsFileName name.toList) :
    (directory.join ⟨name⟩).steps = directory.steps ++ [name.toList] := by
  obtain ⟨relative, steps⟩ := steps_of_isFileName file
  rw [Path.steps_join absolute relative, steps]

variable (h : IsListing files directory names)
include h

theorem IsListing.isPlain {p : Path} (member : p ∈ directory.children names)
    (asked : IsQueryFile files p) : p.isAbsolute = true ∧ p.IsPlain := by
  obtain ⟨name, hname, rfl⟩ := List.mem_map.mp member
  have file := h.named name hname asked
  have plain : (⟨name⟩ : Path).IsPlain := by
    unfold Path.IsPlain
    rw [(steps_of_isFileName file).2]
    exact List.forall_mem_singleton.mpr file
  exact ⟨Path.isAbsolute_join h.absolute, Path.isPlain_join h.absolute h.plain plain⟩

/-- The steps to a query file tell its name. -/
theorem IsListing.name_inj {name name' : String} (hname : name ∈ names) (hname' : name' ∈ names)
    (asked : IsQueryFile files (directory.join ⟨name⟩)) (asked' : IsQueryFile files (directory.join ⟨name'⟩))
    (same : (directory.join ⟨name⟩).steps = (directory.join ⟨name'⟩).steps) : name = name' := by
  rw [steps_join_of_isFileName h.absolute (h.named name hname asked),
    steps_join_of_isFileName h.absolute (h.named name' hname' asked'), List.append_cancel_left_eq,
    List.singleton_inj] at same
  exact String.toList_injective same

/-- Query files with the same components are the same file. -/
theorem IsListing.eq_of_same {p q : Path} (hp : p ∈ directory.children names)
    (hq : q ∈ directory.children names) (asked : IsQueryFile files p)
    (asked' : IsQueryFile files q) (same : p.same q = true) : p = q := by
  have steps := (Path.same_iff_steps (h.isPlain hp asked).1 (h.isPlain hq asked').1).mp same
  obtain ⟨name, hname, rfl⟩ := List.mem_map.mp hp
  obtain ⟨name', hname', rfl⟩ := List.mem_map.mp hq
  rw [h.name_inj hname hname' asked asked' steps]

theorem IsListing.nodup_queries : (queries files (directory.children names)).Nodup := by
  refine (List.mergeSort_perm _ _).nodup_iff.mpr ?_
  rw [Path.children, List.filter_map]
  refine List.Nodup.map_on (fun name hname name' hname' same => ?_) (h.distinct.filter _)
  obtain ⟨member, asked⟩ := List.mem_filter.mp hname
  obtain ⟨member', asked'⟩ := List.mem_filter.mp hname'
  exact h.name_inj member member' (isQuery_iff.mp asked) (isQuery_iff.mp asked') (congrArg Path.steps same)

end Listings

section Reading

variable {index : TripleIndex} {f : String → String} {r : PlanRequest} {node base : String}
  {ts before after : List PlannedTest} {t : PlannedTest}

/-- The first test of an IRI is read from it: it asks the query of the file that it refers to. -/
theorem exists_test_of_first (answers : index.AnswersFrom f (triples r (.iri node) (before ++ t :: after)))
    (first : ∀ u ∈ before, u.id ≠ t.id) (own : t.id ≠ node) {file : Path} (refers : Refers t.query file)
    (place : Path) (runEntailment : Bool) :
    ∃ test, TestCase.ofEntry? index place (.iri t.id) runEntailment = some test ∧ test.name = t.name ∧
      test.uri = t.id ∧ ∃ q, test.query = some q ∧ q.same file = true := by
  obtain ⟨-, name, action, -⟩ := objectsIn_testTriples_id r.testKind before.length t
  have named : index.literal? (.iri t.id) (Vocab.manifest "name") = some t.name := by
    rw [TripleIndex.literal?, object_first answers first own (by rw [name]; rfl)]
    rfl
  have acts := object_first answers first own (p := Vocab.manifest "action") (by rw [action]; rfl)
  obtain ⟨query, -⟩ := read_action answers acts
  obtain ⟨q, hq, same⟩ := TestCase.file?_of_refers index refers
  obtain ⟨test, read, hname, -, hquery, -⟩ :=
    TestCase.exists_ofEntry place runEntailment named (query.trans hq)
  exact ⟨test, read, hname, TestCase.uri_of_ofEntry? read, q, hquery, same⟩

/-- Every entry of a plan is read, as the test that asks the first query of its name. -/
theorem exists_asksFirst {fs : List Path} (answers : index.AnswersFrom f (triples r (.iri node) ts))
    (planned : List.Forall₂ (fun file t => t.Asks base file) fs ts) (other : ∀ t ∈ ts, t.id ≠ node)
    {file : Path} (ht : t ∈ ts) (asking : t.Asks base file) (place : Path) (runEntailment : Bool) :
    ∃ test, TestCase.ofEntry? index place (.iri t.id) runEntailment = some test ∧
      AsksFirst base fs file test := by
  -- The first test of the IRI and the first file of the stem stand at the same place.
  have found : Option.Rel (fun file t => t.Asks base file) (firstOfStem? fs file)
      (ts.find? fun u => u.id == t.id) := by
    refine rel_find? planned fun file' u hu => ?_
    rw [Bool.eq_iff_iff, beq_iff_eq, beq_iff_eq]
    exact (hu.id_eq_iff asking).symm
  generalize hfile : firstOfStem? fs file = first? at found
  generalize hu : (ts.find? fun u => u.id == t.id) = u? at found
  cases found with
  | none => exact absurd (beq_self_eq_true t.id) (List.find?_eq_none.mp hu t ht)
  | @some first u asking' =>
    obtain ⟨same, before, after, rfl, earlier⟩ := List.find?_eq_some_iff_append.mp hu
    have same : u.id = t.id := beq_iff_eq.mp same
    have none : ∀ v ∈ before, v.id ≠ u.id := by
      intro v hv
      simpa [same] using earlier v hv
    obtain ⟨test, read, name, uri, q, hq, hsame⟩ :=
      exists_test_of_first answers none (same ▸ other t ht) asking'.query place runEntailment
    have stem := (asking'.id_eq_iff asking).mp same
    refine ⟨test, same ▸ read, ?_, ?_, first, q, hfile, hq, hsame⟩
    · rw [← stem, asking'.name, name]
    · rw [uri, asking'.id, name]

end Reading

section Counting

variable {base : String} {fs : List Path} {tests : List TestCase}
  (asked : List.Forall₂ (fun file t => AsksFirst base fs file t) fs tests) (distinct : fs.Nodup)
include asked distinct

/-- The IRIs of tests are as different as the stems of their files. -/
theorem nodup_uris_iff : (tests.map TestCase.uri).Nodup ↔
    ∀ p ∈ fs, ∀ q ∈ fs, p.fileStem? = q.fileStem? → p = q := by
  have stems : fs.map Path.fileStem? = (tests.map TestCase.name).map some := by
    rw [← List.forall₂_eq_eq_eq, List.forall₂_map_left_iff, List.map_map, List.forall₂_map_right_iff]
    exact asked.imp fun _ _ asks => asks.name
  have uris : tests.map TestCase.uri = (tests.map TestCase.name).map (base ++ ·) := by
    rw [List.map_map]
    refine List.map_congr_left fun t ht => ?_
    obtain ⟨_, _, asks⟩ := exists_left_of_mem asked t ht
    exact asks.uri
  rw [uris, List.nodup_map_iff fun _ _ => (String.append_right_inj base).mp,
    ← List.nodup_map_iff (Option.some_injective _), ← stems, List.nodup_map_iff_inj_on distinct]

/-- Where files have stems of their own, each is asked by its test and by no other one. -/
theorem countP_asks (own : ∀ p ∈ fs, ∀ q ∈ fs, p.fileStem? = q.fileStem? → p = q)
    (apart : ∀ p ∈ fs, ∀ q ∈ fs, p.same q = true → p = q) {file : Path} (hfile : file ∈ fs) :
    tests.countP (asks file) = 1 := by
  have members : List.Forall₂ (fun p t => p ∈ fs ∧ AsksFirst base fs p t) fs tests :=
    (List.forall₂_and_left _ _).mpr ⟨fun _ hp => hp, asked⟩
  have verdicts : tests.map (asks file) = fs.map (· == file) := by
    symm
    rw [← List.forall₂_eq_eq_eq, List.forall₂_map_left_iff, List.forall₂_map_right_iff]
    refine members.imp fun p t ⟨hp, asking⟩ => ?_
    obtain ⟨first, q, found, hq, same⟩ := asking.query
    have stem : (first.fileStem? == p.fileStem?) = true := by simpa using List.find?_some found
    obtain rfl : first = p := own first (List.mem_of_find?_eq_some found) p hp (beq_iff_eq.mp stem)
    rw [asks, hq, Option.any_some, Path.same_congr same, Bool.eq_iff_iff, beq_iff_eq]
    exact ⟨fun here => here ▸ first.same_refl, apart first hp file hfile⟩
  calc tests.countP (asks file)
      = (tests.map (asks file)).countP id := by
        rw [List.countP_map]
        rfl
    _ = fs.count file := by
        rw [verdicts, List.countP_map]
        rfl
    _ = 1 := List.count_eq_one_of_mem distinct hfile

end Counting

/-- Tests that ask the first query of their names tell query files apart where the names do. -/
theorem tellsApart_iff {files : FileView} {directory : Path} {names : List String} {base : String}
    {tests : List TestCase} (h : IsListing files directory names)
    (asked : List.Forall₂ (fun file t =>
        AsksFirst base (queries files (directory.children names)) file t)
      (queries files (directory.children names)) tests) :
    TellsApart files (directory.children names) tests ↔
      HasOwnStems files (directory.children names) := by
  have distinct := h.nodup_queries
  have listed := isQueryList_queries distinct
  have own : HasOwnStems files (directory.children names) ↔
      ∀ p ∈ queries files (directory.children names),
        ∀ q ∈ queries files (directory.children names),
          p.fileStem? = q.fileStem? → p = q := by
    simp only [listed.mem_iff, HasOwnStems]
    exact ⟨fun own p hp q hq => own p hp.1 q hq.1 hp.2 hq.2,
      fun own p hp q hq asked asked' => own p ⟨hp, asked⟩ q ⟨hq, asked'⟩⟩
  rw [own, ← nodup_uris_iff asked distinct]
  refine ⟨fun apart => apart.uris, fun uris => ⟨uris, fun file member query => ?_⟩⟩
  refine countP_asks asked distinct ((nodup_uris_iff asked distinct).mp uris) ?_
    ((listed.mem_iff file).mpr ⟨member, query⟩)
  intro p hp q hq
  obtain ⟨hp, asked⟩ := (listed.mem_iff p).mp hp
  obtain ⟨hq, asked'⟩ := (listed.mem_iff q).mp hq
  exact h.eq_of_same hp hq asked asked'

end Plan

namespace PlanRequest

variable {r : PlanRequest} {files : FileView} {place directory : Path} {names : List String}

/-- A plan of any directory with plain paths is read back: its entries are the tests of the query files in
their order, and each asks the first query of its name. -/
theorem plan_asksFirst (found : files.canonical? place = some directory)
    (listing : Plan.IsListing files directory names) (fallback : isIri r.fallback.iri = true) :
    ∃ triples base, r.plan files place = .ok triples ∧ ∀ f, TripleIndex.FreshLabels f triples →
      ∀ source manifest runEntailment, ∃ tests,
        TestCase.AreRead (.ofNTriples source (Triple.document (triples.map (Triple.relabel f)))) manifest
          runEntailment tests ∧
        List.Forall₂ (fun file t => Plan.AsksFirst base (Plan.queries files (directory.children names)) file t)
          (Plan.queries files (directory.children names)) tests := by
  obtain ⟨url, steps, hurl, hnode, plain, isNode⟩ := Plan.exists_node listing.absolute listing.plain
  have listed := Plan.isQueryList_queries listing.nodup_queries
  have planned : List.Forall₂ (fun file t => t.Asks (url ++ "manifest" ++ "#") file)
      (Plan.queries files (directory.children names))
      ((Plan.queries files (directory.children names)).filterMap
        (Plan.test? files directory (url ++ "manifest" ++ "#") r)) := by
    refine forall₂_filterMap fun file hfile => ?_
    obtain ⟨member, asked⟩ := (listed.mem_iff file).mp hfile
    obtain ⟨start, taken⟩ := listing.isPlain member asked
    rw [hnode]
    obtain ⟨t, found, asking, -⟩ := Plan.exists_asking r directory plain asked start taken
    exact ⟨t, found, asking⟩
  have planning := plan_eq_ok (r := r) found hurl listing.listed
  generalize (Plan.queries files (directory.children names)).filterMap
    (Plan.test? files directory (url ++ "manifest" ++ "#") r) = ts at planned planning
  have asking := exists_left_of_mem planned
  have readable : ∀ u ∈ Plan.triples r (.iri (url ++ "manifest")) ts, u.IsReadable := by
    refine Plan.isReadable_triples isNode (TestKind.isIri_guess r.kind r.suite fallback) fun t ht => ?_
    obtain ⟨_, _, asks⟩ := asking t ht
    exact asks.iris
  have other : ∀ t ∈ ts, t.id ≠ url ++ "manifest" := by
    intro t ht same
    obtain ⟨_, _, asks⟩ := asking t ht
    exact Plan.ne_of_fragment (asks.id.symm.trans same)
  refine ⟨_, url ++ "manifest" ++ "#", planning, fun f fresh source manifest runEntailment => ?_⟩
  obtain ⟨-, entries, -⟩ := Plan.read_document source readable fresh other rfl
  have answers := TripleIndex.answersFrom_document source readable fresh
  generalize TripleIndex.ofNTriples source (Triple.document
    ((Plan.triples r (.iri (url ++ "manifest")) ts).map (Triple.relabel f))) = index at answers entries ⊢
  obtain ⟨tests, read, asked⟩ := exists_forall₂_of_step planned fun file t ht asks =>
    Plan.exists_asksFirst answers planned other ht asks manifest runEntailment
  exact ⟨tests, ⟨_, entries, List.forall₂_map_left_iff.mpr read⟩, asked⟩

/-- A plan is read back as tests that tell the query files of its directory apart exactly if these have
stems of their own. -/
theorem plan_tellsApart_iff (found : files.canonical? place = some directory)
    (listing : Plan.IsListing files directory names) (fallback : isIri r.fallback.iri = true) :
    ∃ triples, r.plan files place = .ok triples ∧ ∀ f, TripleIndex.FreshLabels f triples →
      ∀ source manifest runEntailment, ∃ tests,
        TestCase.AreRead (.ofNTriples source (Triple.document (triples.map (Triple.relabel f)))) manifest
          runEntailment tests ∧
        (Plan.TellsApart files (directory.children names) tests ↔
          Plan.HasOwnStems files (directory.children names)) := by
  obtain ⟨triples, base, planned, reads⟩ := plan_asksFirst (r := r) found listing fallback
  refine ⟨triples, planned, fun f fresh source manifest runEntailment => ?_⟩
  obtain ⟨tests, read, asked⟩ := reads f fresh source manifest runEntailment
  exact ⟨tests, read, Plan.tellsApart_iff listing asked⟩

def exampleNames : List String := ["b.rq", "a.srx", "a.v2.ru", "a.v2.csv", "notes.txt"]

theorem plan_tellsApart_example : ∃ triples, exampleRequest.plan exampleFiles ⟨"q"⟩ = .ok triples ∧
    TripleIndex.FreshLabels id triples ∧
    ∀ source manifest runEntailment, ∃ tests,
      TestCase.AreRead (.ofNTriples source (Triple.document (triples.map (Triple.relabel id)))) manifest
        runEntailment tests ∧
      Plan.TellsApart exampleFiles ((⟨"/w/q"⟩ : Path).children exampleNames) tests := by
  have found : exampleFiles.canonical? ⟨"q"⟩ = some ⟨"/w/q"⟩ := rfl
  have listing : Plan.IsListing exampleFiles ⟨"/w/q"⟩ exampleNames :=
    ⟨by decide +kernel, by decide +kernel, by decide +kernel, by decide +kernel, by decide +kernel⟩
  have fallback : isIri exampleRequest.fallback.iri = true := by decide +kernel
  have own : Plan.HasOwnStems exampleFiles ((⟨"/w/q"⟩ : Path).children exampleNames) := by decide +kernel
  obtain ⟨triples, planned, reads⟩ := plan_tellsApart_iff found listing fallback
  have fresh := freshLabels_of_plan planned
  refine ⟨triples, planned, fresh, fun source manifest runEntailment => ?_⟩
  obtain ⟨tests, read, apart⟩ := reads id fresh source manifest runEntailment
  exact ⟨tests, read, apart.mpr own⟩

/-- A directory with a query and an update of one stem. -/
def sharedEntries : List Path := (⟨"/w/q"⟩ : Path).children ["a.rq", "a.ru"]

def sharedFiles : FileView where
  content? := fun _ => none
  isFile := fun p => sharedEntries.contains p
  isDirectory := fun _ => false
  isExecutable := fun _ => false
  canonical? := fun _ => some ⟨"/w/q"⟩
  entries? := fun _ => some sharedEntries

/-- The query is asked twice, by tests of one IRI, and the update is lost. -/
theorem plan_losesUpdate : ∃ triples,
    (ofSuite "sparql-query").plan sharedFiles ⟨"q"⟩ = .ok triples ∧ TripleIndex.FreshLabels id triples ∧
    ∀ source manifest runEntailment, ∃ tests,
      TestCase.AreRead (.ofNTriples source (Triple.document (triples.map (Triple.relabel id)))) manifest
        runEntailment tests ∧
      ¬(tests.map TestCase.uri).Nodup ∧
      tests.countP (Plan.asks ⟨"/w/q/a.rq"⟩) = 2 ∧ tests.countP (Plan.asks ⟨"/w/q/a.ru"⟩) = 0 := by
  have found : sharedFiles.canonical? ⟨"q"⟩ = some ⟨"/w/q"⟩ := rfl
  have listing : Plan.IsListing sharedFiles ⟨"/w/q"⟩ ["a.rq", "a.ru"] :=
    ⟨by decide +kernel, by decide +kernel, by decide +kernel, by decide +kernel, by decide +kernel⟩
  have fallback : isIri (ofSuite "sparql-query").fallback.iri = true := by decide +kernel
  have queries : Plan.queries sharedFiles sharedEntries =
      [⟨"/w/q/a.rq"⟩, ⟨"/w/q/a.ru"⟩] := by
    rw [Plan.queries, List.mergeSort_of_pairwise (by decide +kernel)]
    decide +kernel
  have clash : ¬∀ p ∈ [(⟨"/w/q/a.rq"⟩ : Path), ⟨"/w/q/a.ru"⟩], ∀ q ∈ [(⟨"/w/q/a.rq"⟩ : Path), ⟨"/w/q/a.ru"⟩],
      p.fileStem? = q.fileStem? → p = q := by
    decide +kernel
  have chosen : ∀ p ∈ [(⟨"/w/q/a.rq"⟩ : Path), ⟨"/w/q/a.ru"⟩],
      Plan.firstOfStem? [⟨"/w/q/a.rq"⟩, ⟨"/w/q/a.ru"⟩] p = some ⟨"/w/q/a.rq"⟩ := by
    decide +kernel
  obtain ⟨triples, base, planned, reads⟩ := plan_asksFirst (r := ofSuite "sparql-query") found listing fallback
  have fresh := freshLabels_of_plan planned
  refine ⟨triples, planned, fresh, fun source manifest runEntailment => ?_⟩
  obtain ⟨tests, read, asked⟩ := reads id fresh source manifest runEntailment
  rw [← sharedEntries, queries] at asked
  have all : ∀ t ∈ tests, ∀ file, Plan.asks file t = (⟨"/w/q/a.rq"⟩ : Path).same file := by
    intro t ht file
    obtain ⟨p, hp, asking⟩ := exists_left_of_mem asked t ht
    obtain ⟨first, q, chose, hq, same⟩ := asking.query
    obtain rfl := Option.some.inj ((chosen p hp).symm.trans chose)
    rw [Plan.asks, hq, Option.any_some, Path.same_congr same]
  refine ⟨tests, read, fun uris => clash ((Plan.nodup_uris_iff asked (by decide)).mp uris), ?_, ?_⟩
  · rw [List.countP_eq_length.mpr fun t ht => (all t ht _).trans (by decide +kernel), ← asked.length_eq]
    rfl
  · refine List.countP_eq_zero.mpr fun t ht => ?_
    rw [all t ht]
    decide +kernel

end PlanRequest

end SparqlConformance
