import SparqlConformance.Proofs.SuiteCourses
import SparqlConformance.Proofs.XmlMarkup
import SparqlConformance.Reports.JUnit
/-!
# Structure of JUnit reports

What a reader finds in the JUnit report of a run: an element for each suite, and in it one for each record with
the note that its outcome asks for, and the numbers of these elements in the attributes of those around them.
No name, message or output of a test makes any difference to this.
-/
namespace SparqlConformance.JUnit

open Xml

/-- The names of the elements that say more about an outcome. -/
def notes : Outcome → List String
  | .failed | .uxpassed => ["failure"]
  | .skipped => ["skipped"]
  | .passed | .xfailed => []

/-- An element tells about a record, and nothing else is in it. -/
structure IsCase (r : TestRecord) (e : Element) : Prop where
  name : e.name = "testcase"
  about : e.attribute? "id" = some r.test ∧ e.attribute? "name" = some r.name
  notes : e.children.map Element.name = notes r.outcome
  leaves : ∀ c ∈ e.children, c.children = []

/-- An element tells about a suite: it has an element for each record, in their order. -/
structure IsSuite (s : SuiteReport) (e : Element) : Prop where
  name : e.name = "testsuite"
  about : e.attribute? "name" = some s.name
  cases : List.Forall₂ IsCase s.records e.children

/-- The attributes of an element are the numbers of the elements in it. -/
structure CountsInside (e : Element) : Prop where
  tests : e.attribute? "tests" = some (toString (e.inside "testcase").length)
  failures : e.attribute? "failures" = some (toString (e.inside "failure").length)
  skipped : e.attribute? "skipped" = some (toString (e.inside "skipped").length)

/-! ## What is written -/

theorem isPlain_note (r : TestRecord) {name : String} (word : IsWord name) : (note r name).IsPlain := by
  have plain : (⟨name, [("message", message r)]⟩ : Tag).IsPlain := ⟨word, by simp; decide⟩
  unfold note
  split
  · exact .empty plain
  · exact .text plain _

theorem isWord_of_noteName? {o : Outcome} {name : String} (h : noteName? o = some name) : IsWord name := by
  cases o with
  | passed => cases h
  | xfailed => cases h
  | failed => cases h; decide
  | uxpassed => cases h; decide
  | skipped => cases h; decide

theorem isPlain_testCase (suite : String) (r : TestRecord) : (testCase suite r).IsPlain := by
  have plain : (⟨"testcase", [("name", r.name), ("classname", suite), ("id", r.test),
      ("time", secondsText r.elapsed 3)]⟩ : Tag).IsPlain :=
    Tag.isPlain_of_words ["testcase", "name", "classname", "id", "time"] rfl (by decide)
  unfold testCase
  dsimp only
  split
  · exact .empty plain
  · rename_i name hname
    refine .nested plain fun t ht => ?_
    rw [List.mem_singleton.mp ht]
    exact isPlain_note r (isWord_of_noteName? hname)

theorem isPlain_root (r : RunReport) : (root r).IsPlain := by
  refine .nested (Tag.isPlain_of_words ["testsuites", "name", "tests", "failures", "skipped"] rfl
    (by decide)) fun t ht => ?_
  obtain ⟨s, -, rfl⟩ := List.mem_map.mp ht
  refine .nested (Tag.isPlain_of_words ["testsuite", "name", "tests", "failures", "skipped", "time"] rfl
    (by decide)) fun t ht => ?_
  obtain ⟨record, -, rfl⟩ := List.mem_map.mp ht
  exact isPlain_testCase s.name record

theorem element_note (r : TestRecord) (name : String) :
    (note r name).element = .mk ⟨name, [("message", message r)]⟩ [] := by
  unfold note
  split <;> rfl

theorem isCase_testCase (suite : String) (r : TestRecord) : IsCase r (testCase suite r).element := by
  have noted : notes r.outcome = (noteName? r.outcome).toList := by
    cases r.outcome <;> rfl
  unfold testCase
  dsimp only
  split
  · rename_i hnone
    exact ⟨rfl, ⟨rfl, rfl⟩, by rw [noted, hnone]; rfl, fun c hc => absurd hc List.not_mem_nil⟩
  · rename_i name hname
    have children : elements [note r name] = [.mk ⟨name, [("message", message r)]⟩ []] := by
      rw [elements, element_note, elements]
    refine ⟨rfl, ⟨rfl, rfl⟩, ?_, fun c hc => ?_⟩
    · rw [noted, hname]
      exact congrArg (List.map Element.name) children
    · have only : c = .mk ⟨name, [("message", message r)]⟩ [] := List.mem_singleton.mp (children ▸ hc)
      rw [only]
      rfl

theorem isSuite_testSuite (s : SuiteReport) : IsSuite s (testSuite s).element := by
  refine ⟨rfl, rfl, ?_⟩
  have children : (testSuite s).element.children =
      s.records.map fun r => (testCase s.name r).element := by
    exact (elements_eq_map _).trans (List.map_map ..)
  rw [children, List.forall₂_map_right_iff]
  exact List.forall₂_same.mpr fun r _ => isCase_testCase s.name r

/-! ## What is counted -/

/-- The elements of the three kinds among some elements are as many as the counts say. -/
structure Tallies (c : Counts) (es : List Element) : Prop where
  tests : (Element.among "testcase" es).length = c.total
  failures : (Element.among "failure" es).length = c.failures
  skipped : (Element.among "skipped" es).length = c.skipped

theorem inside_eq_among (name : String) (e : Element) : e.inside name = Element.among name e.children := by
  cases e with
  | mk tag children => rw [Element.inside, Element.children]

theorem among_cons (name : String) (e : Element) (es : List Element) :
    Element.among name (e :: es) = Element.among name [e] ++ Element.among name es := by
  rw [Element.among, Element.among, Element.among, List.append_nil]

theorem length_among_singleton (name : String) (e : Element) : (Element.among name [e]).length =
    (if e.name = name then 1 else 0) + (Element.among name e.children).length := by
  rw [Element.among, Element.among, List.append_nil, List.length_append, inside_eq_among]
  split <;> rfl

/-- Elements with nothing in them are counted by their names. -/
theorem length_among_leaves (name : String) {es : List Element} (leaves : ∀ e ∈ es, e.children = []) :
    (Element.among name es).length = (es.map Element.name).count name := by
  induction es with
  | nil => rfl
  | cons e es ih =>
    obtain ⟨here, later⟩ := List.forall_mem_cons.mp leaves
    rw [among_cons, List.length_append, length_among_singleton, here, ih later, List.map_cons, List.count_cons]
    simp only [beq_iff_eq, Element.among, List.length_nil]
    omega

theorem tallies_nil : Tallies .zero [] := ⟨rfl, rfl, rfl⟩

theorem Tallies.cons {c d : Counts} {e : Element} {es : List Element} (here : Tallies c [e])
    (later : Tallies d es) : Tallies (c.add d) (e :: es) := by
  refine ⟨?_, ?_, ?_⟩
  · rw [among_cons, List.length_append, here.tests, later.tests]
    simp only [Counts.total, Counts.add]
    omega
  · rw [among_cons, List.length_append, here.failures, later.failures]
    simp only [Counts.failures, Counts.add]
    omega
  · rw [among_cons, List.length_append, here.skipped, later.skipped]
    rfl

theorem IsCase.length_inside {r : TestRecord} {e : Element} (h : IsCase r e) (name : String) :
    (e.inside name).length = (JUnit.notes r.outcome).count name := by
  rw [inside_eq_among, length_among_leaves name h.leaves, h.notes]

theorem IsCase.tallies {r : TestRecord} {e : Element} (h : IsCase r e) :
    Tallies (Counts.zero.record r.outcome) [e] := by
  have length : ∀ name, (Element.among name [e]).length =
      (if "testcase" = name then 1 else 0) + (JUnit.notes r.outcome).count name := by
    intro name
    rw [length_among_singleton, h.name, ← inside_eq_among, h.length_inside]
  refine ⟨?_, ?_, ?_⟩
  · rw [length]
    cases r.outcome <;> rfl
  · rw [length]
    cases r.outcome <;> rfl
  · rw [length]
    cases r.outcome <;> rfl

theorem tallies_cases {rs : List TestRecord} {es : List Element} (h : List.Forall₂ IsCase rs es) :
    Tallies (.tally (rs.map TestRecord.outcome)) es := by
  induction h with
  | nil => exact tallies_nil
  | cons here _ ih =>
    rw [List.map_cons, Counts.tally_cons]
    exact here.tallies.cons ih

/-- An element that is none of the three kinds counts for what is in it. -/
theorem Tallies.around {c : Counts} {e : Element} (h : Tallies c e.children) (tests : e.name ≠ "testcase")
    (failures : e.name ≠ "failure") (skipped : e.name ≠ "skipped") : Tallies c [e] := by
  refine ⟨?_, ?_, ?_⟩
  · rw [length_among_singleton, if_neg tests, h.tests, Nat.zero_add]
  · rw [length_among_singleton, if_neg failures, h.failures, Nat.zero_add]
  · rw [length_among_singleton, if_neg skipped, h.skipped, Nat.zero_add]

theorem tallies_suites {ss : List SuiteReport} {es : List Element} (h : List.Forall₂ IsSuite ss es) :
    Tallies (.tally (ss.flatMap SuiteReport.outcomes)) es := by
  induction h with
  | nil => exact tallies_nil
  | @cons s e ss es here _ ih =>
    have tallies : Tallies (.tally s.outcomes) [e] :=
      (tallies_cases here.cases).around (by rw [here.name]; decide) (by rw [here.name]; decide)
        (by rw [here.name]; decide)
    rw [List.flatMap_cons, Counts.tally_append]
    exact tallies.cons ih

/-- The sum of the tallies is the tally of all outcomes. -/
theorem foldl_add_tally {ss : List SuiteReport} (tallied : ∀ s ∈ ss, s.counts = .tally s.outcomes)
    (c : Counts) : (ss.map SuiteReport.counts).foldl Counts.add c =
      c.add (.tally (ss.flatMap SuiteReport.outcomes)) := by
  induction ss generalizing c with
  | nil => exact (Counts.add_zero c).symm
  | cons s ss ih =>
    obtain ⟨here, later⟩ := List.forall_mem_cons.mp tallied
    rw [List.map_cons, List.foldl_cons, ih later, here, List.flatMap_cons, Counts.tally_append, Counts.add_assoc]

/-- Attributes that give the tally of what is in an element count what is in it. -/
theorem Tallies.countsInside {c : Counts} {e : Element} (h : Tallies c e.children)
    (tests : e.attribute? "tests" = some (toString c.total))
    (failures : e.attribute? "failures" = some (toString c.failures))
    (skipped : e.attribute? "skipped" = some (toString c.skipped)) : CountsInside e := by
  refine ⟨?_, ?_, ?_⟩
  · rw [inside_eq_among, h.tests, tests]
  · rw [inside_eq_among, h.failures, failures]
  · rw [inside_eq_among, h.skipped, skipped]

/-- The elements of tests are found in the order of the records, suite by suite. -/
theorem forall₂_among_testcase {ss : List SuiteReport} {es : List Element} (h : List.Forall₂ IsSuite ss es) :
    List.Forall₂ IsCase (ss.flatMap SuiteReport.records) (Element.among "testcase" es) := by
  have cases_only : ∀ {rs : List TestRecord} {es : List Element}, List.Forall₂ IsCase rs es →
      Element.among "testcase" es = es := by
    intro rs es h
    induction h with
    | nil => rfl
    | @cons r e rs es here _ ih =>
      -- a test case has only notes in it
      have none_inside : e.inside "testcase" = [] := by
        rw [← List.length_eq_zero_iff, here.length_inside]
        cases r.outcome <;> rfl
      rw [Element.among, if_pos here.name, none_inside, ih]
      rfl
  induction h with
  | nil => exact .nil
  | @cons s e ss es here _ ih =>
    have outside : ¬ e.name = "testcase" := by
      rw [here.name]
      decide
    rw [List.flatMap_cons, Element.among, if_neg outside, List.nil_append, inside_eq_among,
      cases_only here.cases]
    exact List.rel_append here.cases ih

theorem children_root (r : RunReport) :
    (root r).element.children = r.suites.map fun s => (testSuite s).element :=
  (elements_eq_map _).trans (List.map_map ..)

theorem forall₂_isSuite_root (r : RunReport) : List.Forall₂ IsSuite r.suites (root r).element.children := by
  rw [children_root, List.forall₂_map_right_iff]
  exact List.forall₂_same.mpr fun s _ => isSuite_testSuite s

/-- Scanned for markup, the report of a run is a declaration and one element with an element for each suite, and
the counters are right wherever they stand, if the counts of the report are. -/
theorem document?_junit {r : RunReport} (tallied : ∀ s ∈ r.suites, s.counts = .tally s.outcomes)
    (summed : r.totals = (r.suites.map SuiteReport.counts).foldl Counts.add .zero) :
    ∃ root, document? r.junit.toList = some ("xml version=\"1.0\" encoding=\"UTF-8\"".toList, root) ∧
      root.name = "testsuites" ∧ List.Forall₂ IsSuite r.suites root.children ∧
      CountsInside root ∧ ∀ e ∈ root.children, CountsInside e := by
  have suites := forall₂_isSuite_root r
  have totals : r.totals = .tally (r.suites.flatMap SuiteReport.outcomes) := by
    rw [summed, foldl_add_tally tallied, Counts.zero_add]
  refine ⟨(root r).element, document?_document (isPlain_root r), rfl, suites, ?_, fun e he => ?_⟩
  · have tallies := tallies_suites suites
    rw [← totals] at tallies
    exact tallies.countsInside rfl rfl rfl
  · rw [children_root] at he
    obtain ⟨s, hs, rfl⟩ := List.mem_map.mp he
    have tallies := tallies_cases (isSuite_testSuite s).cases
    have counts : s.counts = .tally (s.records.map TestRecord.outcome) := tallied s hs
    rw [← counts] at tallies
    exact tallies.countsInside rfl rfl rfl

/-- Tests that are called like markup, fail with markup and print markup. -/
def markupReport : RunReport :=
  let record (o : Outcome) : TestRecord :=
    { TestRecord.skipped "<a/>\"" "</testcase><testcase>" "]]> & '" with outcome := o, output := "<failure/>" }
  let suite (name : String) (os : List Outcome) : SuiteReport :=
    ⟨name, ⟨"/"⟩, none, os.map record, .tally os, false, 5000⟩
  ⟨[suite "\"/><testsuite a=\"" [.passed, .failed, .skipped], suite "<!-- " [], suite " -->" [.uxpassed, .xfailed]],
    ⟨1, 1, 1, 1, 1⟩, false, []⟩

theorem document?_junit_markupReport :
    ∃ root, document? markupReport.junit.toList =
        some ("xml version=\"1.0\" encoding=\"UTF-8\"".toList, root) ∧
      root.name = "testsuites" ∧ List.Forall₂ IsSuite markupReport.suites root.children ∧
      CountsInside root ∧ ∀ e ∈ root.children, CountsInside e :=
  document?_junit (by decide) (by decide)

end SparqlConformance.JUnit
