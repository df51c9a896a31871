import SparqlConformance.Proofs.IndexedTriples
import SparqlConformance.Proofs.JUnitStructure
import SparqlConformance.Proofs.PlannedTriples
import SparqlConformance.Reports.Earl
/-!
# EARL reports read back

What the index of an EARL report tells: the engine, and for each record whose test has an IRI an assertion with
the outcome that a reader of the JUnit report of the same run finds. The labels of the blank nodes may be any
others, as long as they are plain and different.
-/
namespace SparqlConformance

open TripleIndex (objectsIn objectsIn_append objectsIn_eq_nil)

namespace Earl

open Vocab (earl rdf)

/-- The IRIs of reports are absolute, and what they say is told apart. -/
theorem isAbsolute_reported : ∀ p ∈ [rdf "type", earl "Software", Vocab.doap "name", earl "Assertion",
    earl "assertedBy", earl "subject", earl "test", earl "result", earl "TestResult", earl "outcome",
    Vocab.dcterms "date", Vocab.xsd "dateTime", earl "passed", earl "failed", earl "untested"],
    Iri.isAbsolute p.toList = true := by
  decide +kernel

section Nodes

variable {date : String} {n m i : Nat} {r : TestRecord} {rs : List TestRecord} {u : Triple}

theorem assertionNode_inj : assertionNode n = assertionNode m ↔ n = m :=
  ⟨fun h => Plan.eq_of_numbered (Term.blank.inj h), congrArg assertionNode⟩

theorem resultNode_inj : resultNode n = resultNode m ↔ n = m :=
  ⟨fun h => Plan.eq_of_numbered (Term.blank.inj h), congrArg resultNode⟩

theorem assertionNode_ne_resultNode (n m : Nat) : assertionNode n ≠ resultNode m := by
  intro h
  have text := congrArg String.toList (Term.blank.inj h)
  rw [String.toList_append, String.toList_append] at text
  exact absurd (List.cons.inj text).1 (by decide)

/-- The nodes of the record of a number. -/
def IsNodeOf (n : Nat) (s : Term) : Prop := s = assertionNode n ∨ s = resultNode n

theorem IsNodeOf.eq {s : Term} (h : IsNodeOf n s) (h' : IsNodeOf m s) : n = m := by
  rcases h with rfl | rfl
  · rcases h' with h' | h'
    · exact assertionNode_inj.mp h'
    · exact absurd h' (assertionNode_ne_resultNode n m)
  · rcases h' with h' | h'
    · exact absurd h'.symm (assertionNode_ne_resultNode m n)
    · exact resultNode_inj.mp h'

theorem not_isNodeOf_engineNode (n : Nat) : ¬ IsNodeOf n engineNode := by
  rintro (h | h)
  · have text := congrArg String.toList (Term.blank.inj h)
    rw [String.toList_append] at text
    exact absurd (List.cons.inj text).1 (by decide)
  · have text := congrArg String.toList (Term.blank.inj h)
    rw [String.toList_append] at text
    exact absurd (List.cons.inj text).1 (by decide)

theorem isNodeOf_subject (h : u ∈ assertion date n r) : IsNodeOf n u.subject := by
  simp only [assertion, List.mem_cons, List.not_mem_nil, or_false] at h
  rcases h with rfl | rfl | rfl | rfl | rfl | rfl | rfl | rfl
  · exact .inl rfl
  · exact .inl rfl
  · exact .inl rfl
  · exact .inl rfl
  · exact .inl rfl
  · exact .inr rfl
  · exact .inr rfl
  · exact .inr rfl

theorem mem_assertions (h : u ∈ assertions date n rs) : ∃ m r, n ≤ m ∧ r ∈ rs ∧ u ∈ assertion date m r := by
  induction rs generalizing n with
  | nil => cases h
  | cons r rs ih =>
    rcases List.mem_append.mp h with here | later
    · exact ⟨n, r, Nat.le_refl n, List.mem_cons_self, here⟩
    · obtain ⟨m, r', low, hr', hu⟩ := ih later
      exact ⟨m, r', by omega, List.mem_cons_of_mem _ hr', hu⟩

/-- The triples of one record stand together, and the others are about other nodes. -/
theorem exists_assertions_eq (date : String) (n : Nat) (h : i < rs.length) : ∃ front back,
    assertions date n rs = front ++ assertion date (n + i) rs[i] ++ back ∧
      ∀ u ∈ front ++ back, ∃ m, m ≠ n + i ∧ IsNodeOf m u.subject := by
  induction rs generalizing n i with
  | nil => cases h
  | cons r rs ih =>
    cases i with
    | zero =>
      refine ⟨[], assertions date (n + 1) rs, rfl, fun u hu => ?_⟩
      obtain ⟨m, r', low, _, hu⟩ := mem_assertions hu
      exact ⟨m, by omega, isNodeOf_subject hu⟩
    | succ i =>
      have place : n + (i + 1) = n + 1 + i := by omega
      obtain ⟨front, back, heq, others⟩ := ih (n + 1) (Nat.lt_of_succ_lt_succ h)
      refine ⟨assertion date n r ++ front, back, ?_, fun u hu => ?_⟩
      · rw [assertions, heq, place, List.getElem_cons_succ]
        simp only [List.append_assoc]
      · rw [List.append_assoc, List.mem_append] at hu
        rcases hu with here | later
        · exact ⟨n, by omega, isNodeOf_subject here⟩
        · rw [place]
          exact others u later

end Nodes

section Report

variable {r : RunReport} {engine date : String} {i : Nat} {s : Term}

/-- Nothing else is said of the nodes of a record than what its triples say. -/
theorem objectsIn_earlTriples_node (h : i < (named r).length) (hs : IsNodeOf i s) (p : String) :
    objectsIn (r.earlTriples engine date) s p = objectsIn (assertion date i (named r)[i]) s p := by
  obtain ⟨front, back, heq, others⟩ := exists_assertions_eq date 0 h
  have apart : ∀ u ∈ front ++ back, u.subject ≠ s := by
    rintro u hu rfl
    obtain ⟨m, hm, hnode⟩ := others u hu
    exact hm (by rw [hnode.eq hs, Nat.zero_add])
  have software : ∀ u ∈ engineTriples engine, u.subject ≠ s := by
    intro u hu same
    simp only [engineTriples, List.mem_cons, List.not_mem_nil, or_false] at hu
    have own : u.subject = engineNode := by rcases hu with rfl | rfl <;> rfl
    exact not_isNodeOf_engineNode i (own ▸ same ▸ hs)
  rw [RunReport.earlTriples, objectsIn_append, objectsIn_eq_nil software, heq, objectsIn_append,
    objectsIn_append, objectsIn_eq_nil fun u hu => apart u (List.mem_append_left _ hu),
    objectsIn_eq_nil fun u hu => apart u (List.mem_append_right _ hu), Nat.zero_add, List.nil_append,
    List.nil_append, List.append_nil]

theorem objectsIn_earlTriples_engine (p : String) :
    objectsIn (r.earlTriples engine date) engineNode p = objectsIn (engineTriples engine) engineNode p := by
  have others : ∀ u ∈ assertions date 0 (named r), u.subject ≠ engineNode := by
    intro u hu same
    obtain ⟨m, _, _, _, hu⟩ := mem_assertions hu
    exact not_isNodeOf_engineNode m (same ▸ isNodeOf_subject hu)
  rw [RunReport.earlTriples, objectsIn_append, objectsIn_eq_nil others, List.append_nil]

theorem mem_earlTriples_of_mem_assertion {u : Triple} (h : i < (named r).length)
    (hu : u ∈ assertion date i (named r)[i]) : u ∈ r.earlTriples engine date := by
  obtain ⟨front, back, heq, -⟩ := exists_assertions_eq date 0 h
  refine List.mem_append_right _ ?_
  rw [heq, Nat.zero_add]
  exact List.mem_append_left _ (List.mem_append_right _ hu)

/-- What a report says of an assertion. -/
theorem objectsIn_assertion (date : String) (n : Nat) (r : TestRecord) :
    objectsIn (assertion date n r) (assertionNode n) (rdf "type") = [.iri (earl "Assertion")] ∧
    objectsIn (assertion date n r) (assertionNode n) (earl "assertedBy") = [engineNode] ∧
    objectsIn (assertion date n r) (assertionNode n) (earl "subject") = [engineNode] ∧
    objectsIn (assertion date n r) (assertionNode n) (earl "test") = [.iri r.test] ∧
    objectsIn (assertion date n r) (assertionNode n) (earl "result") = [resultNode n] := by
  have apart : [rdf "type", earl "assertedBy", earl "subject", earl "test", earl "result"].Nodup := by decide
  simp only [List.nodup_cons, List.mem_cons, List.not_mem_nil, or_false, not_or, List.nodup_nil,
    and_true] at apart
  obtain ⟨⟨ta, ts, tt, tr⟩, ⟨as, at', ar⟩, ⟨st, sr⟩, tr', -⟩ := apart
  have other : resultNode n ≠ assertionNode n := Ne.symm (assertionNode_ne_resultNode n n)
  simp [assertion, objectsIn, other, ta, ts, tt, tr, as, at', ar, st, sr, tr', Ne.symm ta, Ne.symm ts,
    Ne.symm tt, Ne.symm tr, Ne.symm as, Ne.symm at', Ne.symm ar, Ne.symm st, Ne.symm sr, Ne.symm tr']

/-- What a report says of a result. -/
theorem objectsIn_result (date : String) (n : Nat) (r : TestRecord) :
    objectsIn (assertion date n r) (resultNode n) (rdf "type") = [.iri (earl "TestResult")] ∧
    objectsIn (assertion date n r) (resultNode n) (earl "outcome") = [.iri (outcomeIri r.outcome)] := by
  have apart : [rdf "type", earl "outcome", Vocab.dcterms "date"].Nodup := by decide
  simp only [List.nodup_cons, List.mem_cons, List.not_mem_nil, or_false, not_or, List.nodup_nil,
    and_true] at apart
  obtain ⟨⟨tc, td⟩, cd, -⟩ := apart
  have other : assertionNode n ≠ resultNode n := assertionNode_ne_resultNode n n
  simp [assertion, objectsIn, other, tc, Ne.symm tc, Ne.symm td, Ne.symm cd]

/-- What a report says of the engine. -/
theorem objectsIn_engineTriples (engine : String) :
    objectsIn (engineTriples engine) engineNode (rdf "type") = [.iri (earl "Software")] ∧
    objectsIn (engineTriples engine) engineNode (Vocab.doap "name") = [.plain engine] := by
  have apart : rdf "type" ≠ Vocab.doap "name" := by decide
  simp [engineTriples, objectsIn, apart, Ne.symm apart]

theorem isReadable_of_mem_assertion {n : Nat} {record : TestRecord} {u : Triple}
    (iri : isIri record.test = true) (h : u ∈ assertion date n record) : u.IsReadable := by
  have reported := isAbsolute_reported
  simp only [List.forall_mem_cons] at reported
  obtain ⟨type, -, -, assertionType, assertedBy, subject, test, result, resultType, outcome, dated, dateTime,
    passed, failed, untested, -⟩ := reported
  have told : Iri.isAbsolute (outcomeIri record.outcome).toList = true := by
    cases record.outcome with
    | passed => exact passed
    | xfailed => exact passed
    | failed => exact failed
    | uxpassed => exact failed
    | skipped => exact untested
  have time : (Earl.dateTime date).IsReadable := ⟨dateTime, by decide⟩
  simp only [assertion, List.mem_cons, List.not_mem_nil, or_false] at h
  rcases h with rfl | rfl | rfl | rfl | rfl | rfl | rfl | rfl
  · exact ⟨trivial, nofun, type, assertionType⟩
  · exact ⟨trivial, nofun, assertedBy, trivial⟩
  · exact ⟨trivial, nofun, subject, trivial⟩
  · exact ⟨trivial, nofun, test, iri⟩
  · exact ⟨trivial, nofun, result, trivial⟩
  · exact ⟨trivial, nofun, type, resultType⟩
  · exact ⟨trivial, nofun, outcome, told⟩
  · exact ⟨trivial, nofun, dated, time⟩

theorem isReadable_earlTriples : ∀ u ∈ r.earlTriples engine date, u.IsReadable := by
  have reported := isAbsolute_reported
  simp only [List.forall_mem_cons] at reported
  obtain ⟨type, software, name, -⟩ := reported
  intro u hu
  rcases List.mem_append.mp hu with head | tail
  · simp only [engineTriples, List.mem_cons, List.not_mem_nil, or_false] at head
    rcases head with rfl | rfl
    · exact ⟨trivial, nofun, type, software⟩
    · exact ⟨trivial, nofun, name, trivial⟩
  · obtain ⟨n, record, -, hrecord, hu⟩ := mem_assertions tail
    exact isReadable_of_mem_assertion (List.mem_filter.mp hrecord).2 hu

/-- The labels that reports give to their blank nodes. -/
def IsOwnLabel (l : String) : Prop :=
  l = "engine" ∨ ∃ n : Nat, l = "assertion" ++ toString n ∨ l = "result" ++ toString n

theorem isPlainLabel_of_isOwnLabel {l : String} (h : IsOwnLabel l) : IsPlainLabel l := by
  rcases h with rfl | ⟨n, rfl | rfl⟩
  · exact ⟨by decide, List.all_eq_true.mp (by decide)⟩
  · exact isPlainLabel_append_number (by decide) (by decide) n
  · exact isPlainLabel_append_number (by decide) (by decide) n

theorem isOwnLabel_of_mem {u : Triple} (hu : u ∈ r.earlTriples engine date) {l : String} (hl : l ∈ u.labels) :
    IsOwnLabel l := by
  have engineLabel : engineNode.label? = some l → IsOwnLabel l := fun h => .inl (Option.some.inj h).symm
  have nodeLabel : ∀ {n s}, IsNodeOf n s → s.label? = some l → IsOwnLabel l := by
    rintro n s (rfl | rfl) h
    · exact .inr ⟨n, .inl (Option.some.inj h).symm⟩
    · exact .inr ⟨n, .inr (Option.some.inj h).symm⟩
  rw [Triple.mem_labels] at hl
  rcases List.mem_append.mp hu with head | tail
  · simp only [engineTriples, List.mem_cons, List.not_mem_nil, or_false] at head
    rcases head with rfl | rfl
    · exact engineLabel (hl.resolve_right nofun)
    · exact engineLabel (hl.resolve_right nofun)
  · obtain ⟨n, record, -, -, hu⟩ := mem_assertions tail
    rcases hl with subject | object
    · exact nodeLabel (isNodeOf_subject hu) subject
    · simp only [assertion, List.mem_cons, List.not_mem_nil, or_false] at hu
      rcases hu with rfl | rfl | rfl | rfl | rfl | rfl | rfl | rfl
      · cases object
      · exact engineLabel object
      · exact engineLabel object
      · cases object
      · exact nodeLabel (.inr rfl) object
      · cases object
      · cases object
      · cases object

/-- Reports may be written with their own labels. -/
theorem freshLabels_own : TripleIndex.FreshLabels id (r.earlTriples engine date) :=
  TripleIndex.freshLabels_id fun _ hu _ hl => isPlainLabel_of_isOwnLabel (isOwnLabel_of_mem hu hl)

theorem length_assertions (date : String) (n : Nat) (rs : List TestRecord) :
    (assertions date n rs).length = 8 * rs.length := by
  induction rs generalizing n with
  | nil => rfl
  | cons r rs ih =>
    have here : (assertion date n r).length = 8 := rfl
    rw [assertions, List.length_append, here, ih, List.length_cons]
    omega

/-- The nodes of as many records, the first of which has a given number. -/
def nodes (n k : Nat) : List Term := (List.range' n k).flatMap fun m => [assertionNode m, resultNode m]

theorem eraseDups_subject_assertions (date : String) (n : Nat) (rs : List TestRecord) :
    ((assertions date n rs).map Triple.subject).eraseDups = nodes n rs.length := by
  induction rs generalizing n with
  | nil => rfl
  | cons r rs ih =>
    have here : ((assertion date n r).map Triple.subject).eraseDups = [assertionNode n, resultNode n] := by
      have other : assertionNode n ≠ resultNode n := assertionNode_ne_resultNode n n
      simp [assertion, List.eraseDups_cons, Ne.symm other]
    have disjoint : ∀ s ∈ (assertions date (n + 1) rs).map Triple.subject,
        s ∉ (assertion date n r).map Triple.subject := by
      intro s hs hs'
      obtain ⟨u, hu, rfl⟩ := List.mem_map.mp hs
      obtain ⟨u', hu', same⟩ := List.mem_map.mp hs'
      obtain ⟨m, _, low, _, hm⟩ := mem_assertions hu
      have := (isNodeOf_subject hu').eq (same ▸ isNodeOf_subject hm)
      omega
    rw [assertions, List.map_append, eraseDups_append_of_disjoint disjoint, here, ih, nodes, nodes,
      List.length_cons, List.range'_succ, List.flatMap_cons]

theorem eraseDups_subject_earlTriples : ((r.earlTriples engine date).map Triple.subject).eraseDups =
    engineNode :: nodes 0 (named r).length := by
  have disjoint : ∀ s ∈ (assertions date 0 (named r)).map Triple.subject,
      s ∉ (engineTriples engine).map Triple.subject := by
    intro s hs hs'
    obtain ⟨u, hu, rfl⟩ := List.mem_map.mp hs
    obtain ⟨m, _, _, _, hm⟩ := mem_assertions hu
    have own : u.subject = engineNode := by simpa [engineTriples] using hs'
    exact not_isNodeOf_engineNode m (own ▸ isNodeOf_subject hm)
  have software : ((engineTriples engine).map Triple.subject).eraseDups = [engineNode] := by
    simp [engineTriples, List.eraseDups_cons]
  rw [RunReport.earlTriples, List.map_append, eraseDups_append_of_disjoint disjoint, software,
    eraseDups_subject_assertions, List.singleton_append]

end Report

/-- Whether an index has a subject as an assertion. -/
def isAssertion (index : TripleIndex) (s : Term) : Bool :=
  index.contains s (rdf "type") (.iri (earl "Assertion"))

theorem isAssertion_iff {index : TripleIndex} {s : Term} :
    isAssertion index s = true ↔ Term.iri (earl "Assertion") ∈ index.objects s (rdf "type") :=
  TripleIndex.contains_iff

/-- The assertions of an index in document order. -/
def assertionsIn (index : TripleIndex) : List Term := index.subjects.filter (isAssertion index)

section Read

variable {r : RunReport} {engine date : String} {f : String → String}

/-- The report with other labels for its blank nodes. -/
def labeled (r : RunReport) (engine date : String) (f : String → String) : String :=
  Triple.document ((r.earlTriples engine date).map (Triple.relabel f))

theorem labeled_id : labeled r engine date id = r.earl engine date := by
  have same : (r.earlTriples engine date).map (Triple.relabel id) = r.earlTriples engine date :=
    (List.map_congr_left fun t _ => Triple.relabel_id t).trans (List.map_id _)
  rw [labeled, same, RunReport.earl]

variable (fresh : TripleIndex.FreshLabels f (r.earlTriples engine date)) (source : String)

include fresh

theorem holds_labeled : (TripleIndex.ofNTriples source (labeled r engine date f)).Holds
    ((r.earlTriples engine date).map (Triple.relabel f)) := by
  have holds := TripleIndex.holds_ofNTriples source (labeled r engine date f)
  rwa [labeled, TripleIndex.triplesOfText_document (TripleIndex.isWritten_relabel isReadable_earlTriples fresh)]
    at holds

theorem subjects_labeled : (TripleIndex.ofNTriples source (labeled r engine date f)).subjects =
    (engineNode :: nodes 0 (named r).length).map (Term.relabel f) := by
  have subjects : ((r.earlTriples engine date).map (Triple.relabel f)).map Triple.subject =
      ((r.earlTriples engine date).map Triple.subject).map (Term.relabel f) := by
    rw [List.map_map, List.map_map]
    rfl
  rw [(holds_labeled fresh source).subjects, subjects, eraseDups_map, eraseDups_subject_earlTriples]
  intro s hs s' hs' same
  obtain ⟨t, ht, rfl⟩ := List.mem_map.mp hs
  obtain ⟨t', ht', rfl⟩ := List.mem_map.mp hs'
  exact Term.eq_of_relabel_eq (fun l m hl hm => fresh.apart t ht t' ht' l (Triple.mem_labels.mpr (.inl hl)) m
    (Triple.mem_labels.mpr (.inl hm))) same

theorem objects_labeled_node {i : Nat} (h : i < (named r).length) {s : Term} (hs : IsNodeOf i s) (p : String) :
    (TripleIndex.ofNTriples source (labeled r engine date f)).objects (s.relabel f) p =
      (objectsIn (assertion date i (named r)[i]) s p).map (Term.relabel f) := by
  have told : ∃ u ∈ assertion date i (named r)[i], u.subject = s := by
    rcases hs with rfl | rfl
    · exact ⟨_, List.mem_cons_self, rfl⟩
    · exact ⟨⟨resultNode i, rdf "type", .iri (earl "TestResult")⟩, by simp [assertion], rfl⟩
  obtain ⟨u, hu, rfl⟩ := told
  have answers := TripleIndex.answersFrom_document source isReadable_earlTriples fresh
  rw [labeled, answers u (mem_earlTriples_of_mem_assertion h hu) p, objectsIn_earlTriples_node h hs]

theorem objects_labeled_engine (p : String) :
    (TripleIndex.ofNTriples source (labeled r engine date f)).objects (engineNode.relabel f) p =
      (objectsIn (engineTriples engine) engineNode p).map (Term.relabel f) := by
  have told : (⟨engineNode, rdf "type", .iri (earl "Software")⟩ : Triple) ∈ r.earlTriples engine date :=
    List.mem_append_left _ List.mem_cons_self
  have answers := TripleIndex.answersFrom_document source isReadable_earlTriples fresh _ told p
  rwa [objectsIn_earlTriples_engine] at answers

/-- Of the subjects, those of the records are the assertions. -/
theorem assertions_labeled : assertionsIn (TripleIndex.ofNTriples source (labeled r engine date f)) =
    (List.range' 0 (named r).length).map fun n => (assertionNode n).relabel f := by
  have types : earl "Assertion" ≠ earl "Software" ∧ earl "Assertion" ≠ earl "TestResult" := by decide
  have software : ¬ isAssertion (TripleIndex.ofNTriples source (labeled r engine date f))
      (engineNode.relabel f) = true := by
    rw [isAssertion_iff, objects_labeled_engine fresh, (objectsIn_engineTriples engine).1]
    simpa [Term.relabel] using types.1
  rw [assertionsIn, subjects_labeled fresh, List.map_cons, List.filter_cons_of_neg software, nodes,
    List.map_flatMap, List.filter_flatMap, List.map_eq_flatMap]
  refine List.flatMap_congr fun n hn => ?_
  have place : n < (named r).length := by simpa using hn
  have yes : isAssertion (TripleIndex.ofNTriples source (labeled r engine date f))
      ((assertionNode n).relabel f) = true := by
    rw [isAssertion_iff, objects_labeled_node fresh source place (.inl rfl), (objectsIn_assertion date n _).1]
    exact List.mem_singleton.mpr rfl
  have no : ¬ isAssertion (TripleIndex.ofNTriples source (labeled r engine date f))
      ((resultNode n).relabel f) = true := by
    rw [isAssertion_iff, objects_labeled_node fresh source place (.inr rfl), (objectsIn_result date n _).1]
    simpa [Term.relabel] using types.2
  rw [List.map_cons, List.map_singleton, List.filter_cons_of_pos yes, List.filter_cons_of_neg no, List.filter_nil]

/-- An assertion tells of the test of a record what the element of the record in the JUnit report tells. -/
structure Agrees (index : TripleIndex) (software s : Term) (record : TestRecord) (e : Xml.Element) : Prop where
  test : index.objects s (earl "test") = [.iri record.test]
  about : e.attribute? "id" = some record.test
  software : index.objects s (earl "assertedBy") = [software] ∧ index.objects s (earl "subject") = [software]
  outcome : ∃ result told, index.objects s (earl "result") = [result] ∧
    index.objects result (earl "outcome") = [.iri told] ∧
    (told = earl "failed" ↔ e.inside "failure" ≠ []) ∧ (told = earl "untested" ↔ e.inside "skipped" ≠ []) ∧
    (told = earl "passed" ↔ e.inside "failure" = [] ∧ e.inside "skipped" = [])

theorem agrees_of_isCase {i : Nat} (h : i < (named r).length) {e : Xml.Element}
    (isCase : JUnit.IsCase (named r)[i] e) :
    Agrees (TripleIndex.ofNTriples source (labeled r engine date f)) (engineNode.relabel f)
      ((assertionNode i).relabel f) (named r)[i] e := by
  have objects := objects_labeled_node fresh source h (.inl rfl)
  have outcome := objects_labeled_node fresh source h (.inr rfl) (earl "outcome")
  obtain ⟨-, assertedBy, subject, test, result⟩ := objectsIn_assertion date i (named r)[i]
  rw [(objectsIn_result date i _).2] at outcome
  have inside : ∀ name, e.inside name = [] ↔ (JUnit.notes (named r)[i].outcome).count name = 0 := by
    intro name
    rw [← isCase.length_inside, List.length_eq_zero_iff]
  refine ⟨?_, isCase.about.1, ⟨?_, ?_⟩, (resultNode i).relabel f, outcomeIri (named r)[i].outcome, ?_, outcome, ?_⟩
  · rw [objects, test]
    rfl
  · rw [objects, assertedBy]
    rfl
  · rw [objects, subject]
    rfl
  · rw [objects, result]
    rfl
  · rw [ne_eq, ne_eq, inside, inside]
    cases (named r)[i].outcome <;> decide

/-- The report has two triples about the engine and eight for each record whose test has an IRI. Its assertions
are about these records, in their order, and agree with what is scanned from the JUnit report of the run. -/
theorem agrees_with_junit :
    (TripleIndex.ofNTriples source (labeled r engine date f)).size =
      2 + 8 * (r.records.filter fun record => isIri record.test).length ∧
    ∃ root software, Xml.document? r.junit.toList =
        some ("xml version=\"1.0\" encoding=\"UTF-8\"".toList, root) ∧
      (root.inside "testcase").length = r.records.length ∧
      (TripleIndex.ofNTriples source (labeled r engine date f)).objects software (Vocab.doap "name") =
        [.plain engine] ∧
      List.Forall₂ (fun s case => Agrees (TripleIndex.ofNTriples source (labeled r engine date f)) software s
          case.1 case.2)
        (assertionsIn (TripleIndex.ofNTriples source (labeled r engine date f)))
        ((r.records.zip (root.inside "testcase")).filter fun case => isIri case.1.test) := by
  have cases := JUnit.forall₂_among_testcase (JUnit.forall₂_isSuite_root r)
  rw [← JUnit.inside_eq_among] at cases
  change List.Forall₂ JUnit.IsCase r.records _ at cases
  refine ⟨?_, (JUnit.root r).element, engineNode.relabel f, Xml.document?_document (JUnit.isPlain_root r),
    cases.length_eq.symm, ?_, ?_⟩
  · rw [(holds_labeled fresh source).size, List.length_map, RunReport.earlTriples, List.length_append,
      length_assertions]
    rfl
  · rw [objects_labeled_engine fresh, (objectsIn_engineTriples engine).2]
    rfl
  · let pairs := (r.records.zip ((JUnit.root r).element.inside "testcase")).filter fun case => isIri case.1.test
    have records : pairs.map Prod.fst = named r := by
      have kept := List.filter_map (f := Prod.fst) (p := fun record : TestRecord => isIri record.test)
        (l := r.records.zip ((JUnit.root r).element.inside "testcase"))
      rw [List.map_fst_zip cases.length_eq.le] at kept
      exact kept.symm
    have length : pairs.length = (named r).length := by rw [← records, List.length_map]
    rw [assertions_labeled fresh, List.forall₂_map_left_iff, List.forall₂_iff_get]
    refine ⟨by rw [List.length_range', ← length], fun i _ hpair => ?_⟩
    -- the assertion of a number is about the record of that number
    have place : i < (named r).length := length ▸ hpair
    have record : (named r)[i] = pairs[i].1 := by simp only [← records, List.getElem_map]
    have isCase : JUnit.IsCase (named r)[i] pairs[i].2 := by
      rw [record]
      exact (List.forall₂_iff_zip.mp cases).2 (List.mem_of_mem_filter (List.getElem_mem hpair))
    have agrees := agrees_of_isCase fresh source place isCase
    simp only [List.get_eq_getElem, List.getElem_range', Nat.zero_add, Nat.one_mul]
    rw [record] at agrees
    exact agrees

end Read

/-- Two suites with a test of each outcome, one of them twice and one without an IRI. -/
def mixedReport : RunReport :=
  let record (test : String) (o : Outcome) : TestRecord := { TestRecord.skipped test "<b>" "" with outcome := o }
  let suite (records : List TestRecord) : SuiteReport :=
    ⟨"s", ⟨"/"⟩, none, records, .tally (records.map TestRecord.outcome), false, 0⟩
  ⟨[suite [record "t:a" .passed, record "no iri" .failed, record "t:b" .uxpassed],
    suite [record "t:c" .skipped, record "t:a" .failed, record "t:d" .xfailed]], ⟨1, 2, 1, 1, 1⟩, false, []⟩

theorem agrees_with_junit_mixedReport :
    let index := TripleIndex.ofNTriples "e.nt" (mixedReport.earl "\"\\ .\n<x>" "now")
    index.size = 2 + 8 * 5 ∧
    ∃ root software, Xml.document? mixedReport.junit.toList =
        some ("xml version=\"1.0\" encoding=\"UTF-8\"".toList, root) ∧
      (root.inside "testcase").length = 6 ∧
      index.objects software (Vocab.doap "name") = [.plain "\"\\ .\n<x>"] ∧
      List.Forall₂ (fun s case => Agrees index software s case.1 case.2) (assertionsIn index)
        ((mixedReport.records.zip (root.inside "testcase")).filter fun case => isIri case.1.test) := by
  have agrees := @agrees_with_junit mixedReport "\"\\ .\n<x>" "now" id freshLabels_own "e.nt"
  rw [labeled_id] at agrees
  exact agrees

end Earl

end SparqlConformance
