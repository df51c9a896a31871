import SparqlConformance.Plans.Plan
import SparqlConformance.Proofs.IndexedDocuments
import SparqlConformance.Proofs.PlainPaths
/-!
# The triples of a plan

What the triples of a plan say about the plan itself, about one of its tests, about the action of a test and
about a cell of the list of tests. Each of these is the subject of triples that stand together, and no
other triple has it as its subject.
-/
namespace SparqlConformance

open TripleIndex (objectsIn objectsIn_append objectsIn_eq_nil)

namespace Vocab

/-- Namespaces end with a hash, and are IRIs without it. -/
def isNamespace (s : List Char) : Bool :=
  s.getLast? == some '#' && !s.dropLast.contains '#' && Iri.isAbsolute s.dropLast

/-- The predicates of a test, of an action, of a plan and of a cell are different ones, and the namespaces
of plans are namespaces. -/
theorem predicates_spec :
    ([rdf "type", manifest "name", manifest "action", manifest "result"].Nodup ∧
      [query "query", query "data", update "data"].Nodup ∧
      [rdf "type", manifest "entries", rdfs "comment", plan "path"].Nodup ∧
      [rdf "first", rdf "rest"].Nodup) ∧
    isNamespace "http://www.w3.org/1999/02/22-rdf-syntax-ns#".toList = true ∧
    isNamespace "http://www.w3.org/2000/01/rdf-schema#".toList = true ∧
    isNamespace "http://www.w3.org/2001/sw/DataAccess/tests/test-manifest#".toList = true ∧
    isNamespace "http://www.w3.org/2001/sw/DataAccess/tests/test-query#".toList = true ∧
    isNamespace "http://jena.hpl.hp.com/2005/05/test-manifest-extra#".toList = true ∧
    isNamespace "http://ns.librdf.org/2009/test-manifest#".toList = true := by
  decide +kernel

/-- Names of letters and digits are IRIs in their namespaces. -/
theorem isAbsolute_name {space name : String} (h : isNamespace space.toList = true)
    (word : name.toList.all isFileChar = true) : Iri.isAbsolute (space ++ name).toList = true := by
  rw [isNamespace, Bool.and_eq_true, Bool.and_eq_true] at h
  obtain ⟨⟨hash, inner⟩, absolute⟩ := h
  obtain ⟨s, hs⟩ := List.getLast?_eq_some_iff.mp (beq_iff_eq.mp hash)
  rw [hs, List.dropLast_concat] at inner absolute
  have plain : '#' ∉ s := by simpa using inner
  rw [String.toList_append, hs, List.append_assoc]
  refine Iri.isAbsolute_append_fragment plain (Iri.escapedAll_of_all fun c hc => ?_) absolute
  have file := List.all_eq_true.mp word c hc
  exact ⟨isFragmentChar_of_isFileChar file, ne_of_isFileChar file (by decide)⟩

/-- The predicates of plans, and the IRIs that their triples point to. -/
theorem isAbsolute_planned : ∀ p ∈ [rdf "type", rdf "first", rdf "rest", rdf "nil", rdfs "comment",
    manifest "Manifest", manifest "entries", manifest "name", manifest "action", manifest "result",
    query "query", query "data", plan "path"], Iri.isAbsolute p.toList = true := by
  obtain ⟨-, hrdf, hrdfs, hmanifest, hquery, -, hplan⟩ := predicates_spec
  simp only [List.forall_mem_cons]
  refine ⟨isAbsolute_name hrdf ?_, isAbsolute_name hrdf ?_, isAbsolute_name hrdf ?_,
    isAbsolute_name hrdf ?_, isAbsolute_name hrdfs ?_, isAbsolute_name hmanifest ?_,
    isAbsolute_name hmanifest ?_, isAbsolute_name hmanifest ?_, isAbsolute_name hmanifest ?_,
    isAbsolute_name hmanifest ?_, isAbsolute_name hquery ?_, isAbsolute_name hquery ?_,
    isAbsolute_name hplan ?_, fun _ h => absurd h List.not_mem_nil⟩
  all_goals decide

end Vocab

namespace Plan

open Vocab (manifest rdf)

theorem eq_of_numbered {mark : String} {n m : Nat} (h : mark ++ toString n = mark ++ toString m) :
    n = m := by
  have digits : Nat.toDigits 10 n = Nat.toDigits 10 m :=
    String.ofList_injective ((String.append_right_inj mark).mp h)
  rw [← Nat.ofDigitChars_ten_toDigits (n := n), digits, Nat.ofDigitChars_ten_toDigits]

theorem actionNode_inj {n m : Nat} : actionNode n = actionNode m ↔ n = m :=
  ⟨fun h => eq_of_numbered (Term.blank.inj h), congrArg actionNode⟩

theorem cellNode_inj {n m : Nat} : cellNode n = cellNode m ↔ n = m :=
  ⟨fun h => eq_of_numbered (Term.blank.inj h), congrArg cellNode⟩

theorem actionNode_ne_iri (n : Nat) (iri : String) : actionNode n ≠ .iri iri := nofun

theorem actionNode_ne_cellNode (n m : Nat) : actionNode n ≠ cellNode m := by
  intro h
  have text := congrArg String.toList (Term.blank.inj h)
  rw [String.toList_append, String.toList_append] at text
  exact absurd (List.cons.inj text).1 (by decide)

/-- What is in a plan is called otherwise than the plan. -/
theorem ne_of_fragment {node name : String} : node ++ "#" ++ name ≠ node := by
  intro same
  have lengths := congrArg String.length same
  rw [String.length_append, String.length_append] at lengths
  have one : "#".length = 1 := rfl
  omega

/-- The tests of a plan have IRIs of their own, which are not the IRI of the plan. -/
structure IsApart (node : String) (ts : List PlannedTest) : Prop where
  ids : (ts.map PlannedTest.id).Nodup
  node : ∀ t ∈ ts, t.id ≠ node

section Members

variable {r : PlanRequest} {kind : TestKind} {n : Nat} {t : PlannedTest} {ts : List PlannedTest} {u : Triple}

/-- What a plan says about itself. -/
inductive SaysOfPlan (r : PlanRequest) (node : Term) (ts : List PlannedTest) : Triple → Prop
  | type : SaysOfPlan r node ts ⟨node, rdf "type", .iri (manifest "Manifest")⟩
  | entries : SaysOfPlan r node ts ⟨node, manifest "entries", listHead 0 ts⟩
  | comment (d : String) : SaysOfPlan r node ts ⟨node, Vocab.rdfs "comment", .plain d⟩
  | path (p : String) : SaysOfPlan r node ts ⟨node, Vocab.plan "path", .plain p⟩

theorem saysOfPlan_of_mem {node : Term} (h : u ∈ headTriples r node ts) : SaysOfPlan r node ts u := by
  simp only [headTriples, List.mem_append, List.mem_cons, List.not_mem_nil, or_false, List.mem_map] at h
  rcases h with ((rfl | rfl) | ⟨d, _, rfl⟩) | ⟨p, _, rfl⟩
  · exact .type
  · exact .entries
  · exact .comment d
  · exact .path p

/-- What a plan says about a test and its action. -/
inductive SaysOfTest (kind : TestKind) (n : Nat) (t : PlannedTest) : Triple → Prop
  | type : SaysOfTest kind n t ⟨.iri t.id, rdf "type", .iri kind.iri⟩
  | name : SaysOfTest kind n t ⟨.iri t.id, manifest "name", .plain t.name⟩
  | bare : SaysOfTest kind n t ⟨.iri t.id, manifest "action", .iri t.query⟩
  | action : SaysOfTest kind n t ⟨.iri t.id, manifest "action", actionNode n⟩
  | query : SaysOfTest kind n t ⟨actionNode n, Vocab.query "query", .iri t.query⟩
  | data (d : String) (h : d ∈ t.data) : SaysOfTest kind n t ⟨actionNode n, Vocab.query "data", .iri d⟩
  | result (e : String) (h : e ∈ t.result) : SaysOfTest kind n t ⟨.iri t.id, manifest "result", .iri e⟩

theorem saysOfTest_of_mem (h : u ∈ testTriples kind n t) : SaysOfTest kind n t u := by
  unfold testTriples at h
  split at h
  · simp only [List.mem_append, List.mem_cons, List.not_mem_nil, or_false] at h
    rcases h with (rfl | rfl) | rfl
    · exact .type
    · exact .name
    · exact .bare
  · simp only [List.mem_append, List.mem_cons, List.not_mem_nil, or_false, List.mem_map,
      Option.mem_toList] at h
    rcases h with (rfl | rfl) | ((rfl | rfl) | ⟨d, hd, rfl⟩) | ⟨e, he, rfl⟩
    · exact .type
    · exact .name
    · exact .action
    · exact .query
    · exact .data d hd
    · exact .result e he

theorem saysOfTest_of_mem_all (h : u ∈ allTestTriples kind n ts) :
    ∃ m, ∃ t ∈ ts, n ≤ m ∧ m < n + ts.length ∧ SaysOfTest kind m t u := by
  induction ts generalizing n with
  | nil => cases h
  | cons t ts ih =>
    rw [List.length_cons]
    rcases List.mem_append.mp h with here | later
    · exact ⟨n, t, List.mem_cons_self, Nat.le_refl n, by omega, saysOfTest_of_mem here⟩
    · obtain ⟨m, t', ht', low, high, said⟩ := ih later
      exact ⟨m, t', List.mem_cons_of_mem _ ht', by omega, by omega, said⟩

/-- The triples of a cell: its item, and what comes next. -/
def cellTriples (n : Nat) (t : PlannedTest) (after : List PlannedTest) : List Triple :=
  [⟨cellNode n, rdf "first", .iri t.id⟩, ⟨cellNode n, rdf "rest", listHead (n + 1) after⟩]

theorem mem_cellTriples_of_mem (h : u ∈ listTriples n ts) :
    ∃ m, ∃ t ∈ ts, n ≤ m ∧ ∃ after, u ∈ cellTriples m t after := by
  induction ts generalizing n with
  | nil => cases h
  | cons t ts ih =>
    rcases List.mem_append.mp h with later | here
    · obtain ⟨m, t', ht', low, after, hu⟩ := ih later
      exact ⟨m, t', List.mem_cons_of_mem _ ht', by omega, after, hu⟩
    · exact ⟨n, t, List.mem_cons_self, Nat.le_refl n, ts, here⟩

theorem subject_of_mem_cellTriples {after : List PlannedTest} (h : u ∈ cellTriples n t after) :
    u.subject = cellNode n := by
  simp only [cellTriples, List.mem_cons, List.not_mem_nil, or_false] at h
  rcases h with rfl | rfl <;> rfl

theorem SaysOfPlan.subject {node : Term} (h : SaysOfPlan r node ts u) : u.subject = node := by
  cases h <;> rfl

theorem SaysOfTest.subject (h : SaysOfTest kind n t u) :
    u.subject = .iri t.id ∨ u.subject = actionNode n := by
  cases h with
  | query => exact .inr rfl
  | data => exact .inr rfl
  | _ => exact .inl rfl

theorem mem_triples {node : Term} (h : u ∈ triples r node ts) : SaysOfPlan r node ts u ∨
    (∃ m, ∃ t ∈ ts, SaysOfTest r.testKind m t u) ∨ ∃ m, ∃ t ∈ ts, ∃ after, u ∈ cellTriples m t after := by
  rcases List.mem_append.mp h with h | cell
  · rcases List.mem_append.mp h with head | test
    · exact .inl (saysOfPlan_of_mem head)
    · obtain ⟨m, t, ht, _, _, said⟩ := saysOfTest_of_mem_all test
      exact .inr (.inl ⟨m, t, ht, said⟩)
  · obtain ⟨m, t, ht, _, after, hu⟩ := mem_cellTriples_of_mem cell
    exact .inr (.inr ⟨m, t, ht, after, hu⟩)

end Members

section Lookup

variable {r : PlanRequest} {kind : TestKind} {node : String} {before after : List PlannedTest}
  {t : PlannedTest}

theorem allTestTriples_append (n : Nat) (ts us : List PlannedTest) :
    allTestTriples kind n (ts ++ us) = allTestTriples kind n ts ++ allTestTriples kind (n + ts.length) us := by
  induction ts generalizing n with
  | nil => rfl
  | cons t ts ih =>
    have place : n + (t :: ts).length = n + 1 + ts.length := by
      rw [List.length_cons]
      omega
    rw [List.cons_append, allTestTriples, allTestTriples, ih, place, List.append_assoc]

/-- Tests say nothing about what is neither a test nor an action of theirs. -/
theorem objectsIn_allTestTriples_eq_nil {n : Nat} {ts : List PlannedTest} {s : Term}
    (ids : ∀ t ∈ ts, s ≠ .iri t.id) (actions : ∀ m, n ≤ m → m < n + ts.length → s ≠ actionNode m)
    (p : String) : objectsIn (allTestTriples kind n ts) s p = [] := by
  refine objectsIn_eq_nil (fun u hu same => ?_) p
  obtain ⟨m, t, ht, low, high, said⟩ := saysOfTest_of_mem_all hu
  rcases said.subject with id | action
  · exact ids t ht (same.symm.trans id)
  · exact actions m low high (same.symm.trans action)

theorem objectsIn_allTestTriples_split (s : Term) (p : String) :
    objectsIn (allTestTriples kind 0 (before ++ t :: after)) s p =
      objectsIn (allTestTriples kind 0 before) s p ++
        (objectsIn (testTriples kind before.length t) s p ++
          objectsIn (allTestTriples kind (before.length + 1) after) s p) := by
  rw [allTestTriples_append, allTestTriples, Nat.zero_add, objectsIn_append, objectsIn_append]

/-- An action belongs to one test, whatever the tests are called. -/
theorem objectsIn_allTestTriples_action (p : String) :
    objectsIn (allTestTriples kind 0 (before ++ t :: after)) (actionNode before.length) p =
      objectsIn (testTriples kind before.length t) (actionNode before.length) p := by
  have front : objectsIn (allTestTriples kind 0 before) (actionNode before.length) p = [] := by
    refine objectsIn_allTestTriples_eq_nil (fun _ _ => actionNode_ne_iri _ _) (fun m _ high same => ?_) p
    have := actionNode_inj.mp same
    omega
  have back : objectsIn (allTestTriples kind (before.length + 1) after) (actionNode before.length) p =
      [] := by
    refine objectsIn_allTestTriples_eq_nil (fun _ _ => actionNode_ne_iri _ _) (fun m low _ same => ?_) p
    have := actionNode_inj.mp same
    omega
  rw [objectsIn_allTestTriples_split, front, back, List.append_nil, List.nil_append]

/-- What the first test of an IRI says about it stands in front of what the others say. -/
theorem exists_objectsIn_allTestTriples (first : ∀ u ∈ before, u.id ≠ t.id) (p : String) :
    ∃ more, objectsIn (allTestTriples kind 0 (before ++ t :: after)) (.iri t.id) p =
      objectsIn (testTriples kind before.length t) (.iri t.id) p ++ more := by
  have front : objectsIn (allTestTriples kind 0 before) (.iri t.id) p = [] :=
    objectsIn_allTestTriples_eq_nil (fun u hu same => first u hu (Term.iri.inj same).symm)
      (fun _ _ _ => nofun) p
  rw [objectsIn_allTestTriples_split, front, List.nil_append]
  exact ⟨_, rfl⟩

/-- The list is written backwards, but each of its cells is described in one place. -/
theorem objectsIn_listTriples {n : Nat} (p : String) :
    objectsIn (listTriples n (before ++ t :: after)) (cellNode (n + before.length)) p =
      objectsIn (cellTriples (n + before.length) t after) (cellNode (n + before.length)) p := by
  induction before generalizing n with
  | nil =>
    have others : ∀ u ∈ listTriples (n + 1) after, u.subject ≠ cellNode n := by
      intro u hu same
      obtain ⟨m, _, _, low, _, hu⟩ := mem_cellTriples_of_mem hu
      have := cellNode_inj.mp ((subject_of_mem_cellTriples hu).symm.trans same)
      omega
    rw [List.nil_append, List.length_nil, Nat.add_zero, listTriples, objectsIn_append,
      objectsIn_eq_nil others, List.nil_append]
    rfl
  | cons b before ih =>
    have place : n + (b :: before).length = n + 1 + before.length := by
      rw [List.length_cons]
      omega
    have other : ∀ u ∈ cellTriples n b (before ++ t :: after),
        u.subject ≠ cellNode (n + 1 + before.length) := by
      intro u hu same
      have := cellNode_inj.mp ((subject_of_mem_cellTriples hu).symm.trans same)
      omega
    rw [place, List.cons_append, listTriples, ← cellTriples, objectsIn_append, objectsIn_eq_nil other,
      List.append_nil, ih]

theorem objectsIn_triples_node {ts : List PlannedTest} (other : ∀ t ∈ ts, t.id ≠ node) (p : String) :
    objectsIn (triples r (.iri node) ts) (.iri node) p =
      objectsIn (headTriples r (.iri node) ts) (.iri node) p := by
  have tests : objectsIn (allTestTriples r.testKind 0 ts) (.iri node) p = [] :=
    objectsIn_allTestTriples_eq_nil (fun t ht same => other t ht (Term.iri.inj same).symm)
      (fun _ _ _ => nofun) p
  have cells : ∀ u ∈ listTriples 0 ts, u.subject ≠ .iri node := by
    intro u hu same
    obtain ⟨m, _, _, _, _, hu⟩ := mem_cellTriples_of_mem hu
    cases (subject_of_mem_cellTriples hu).symm.trans same
  rw [triples, objectsIn_append, objectsIn_append, tests, objectsIn_eq_nil cells, List.append_nil,
    List.append_nil]

/-- What is neither the plan nor a cell is described by the tests. -/
theorem objectsIn_triples_of_ne {ts : List PlannedTest} {s : Term} (plan : s ≠ .iri node)
    (cell : ∀ m, s ≠ cellNode m) (p : String) : objectsIn (triples r (.iri node) ts) s p =
      objectsIn (allTestTriples r.testKind 0 ts) s p := by
  have head : ∀ u ∈ headTriples r (.iri node) ts, u.subject ≠ s := by
    intro u hu same
    exact plan (same.symm.trans (saysOfPlan_of_mem hu).subject)
  have cells : ∀ u ∈ listTriples 0 ts, u.subject ≠ s := by
    intro u hu same
    obtain ⟨m, _, _, _, _, hu⟩ := mem_cellTriples_of_mem hu
    exact cell m (same.symm.trans (subject_of_mem_cellTriples hu))
  rw [triples, objectsIn_append, objectsIn_append, objectsIn_eq_nil head, objectsIn_eq_nil cells,
    List.nil_append, List.append_nil]

theorem objectsIn_triples_action (p : String) :
    objectsIn (triples r (.iri node) (before ++ t :: after)) (actionNode before.length) p =
      objectsIn (testTriples r.testKind before.length t) (actionNode before.length) p := by
  rw [objectsIn_triples_of_ne (actionNode_ne_iri _ _) (actionNode_ne_cellNode before.length),
    objectsIn_allTestTriples_action]

theorem objectsIn_triples_cell (p : String) :
    objectsIn (triples r (.iri node) (before ++ t :: after)) (cellNode before.length) p =
      objectsIn (cellTriples before.length t after) (cellNode before.length) p := by
  have head : ∀ u ∈ headTriples r (.iri node) (before ++ t :: after),
      u.subject ≠ cellNode before.length := by
    intro u hu same
    cases (saysOfPlan_of_mem hu).subject.symm.trans same
  have tests : ∀ u ∈ allTestTriples r.testKind 0 (before ++ t :: after),
      u.subject ≠ cellNode before.length := by
    intro u hu same
    obtain ⟨m, _, _, _, _, said⟩ := saysOfTest_of_mem_all hu
    rcases said.subject with id | action
    · cases id.symm.trans same
    · exact actionNode_ne_cellNode _ _ (action.symm.trans same)
  have here : objectsIn (listTriples 0 (before ++ t :: after)) (cellNode (0 + before.length)) p = _ :=
    objectsIn_listTriples p
  rw [Nat.zero_add] at here
  rw [triples, objectsIn_append, objectsIn_append, objectsIn_eq_nil head, objectsIn_eq_nil tests,
    List.append_nil, List.nil_append, here]

theorem mem_triples_of_mem_testTriples {u : Triple} (h : u ∈ testTriples r.testKind before.length t) :
    u ∈ triples r (.iri node) (before ++ t :: after) := by
  refine List.mem_append_left _ (List.mem_append_right _ ?_)
  rw [allTestTriples_append, Nat.zero_add]
  exact List.mem_append_right _ (List.mem_append_left _ h)

theorem mem_triples_of_mem_cellTriples {u : Triple} (h : u ∈ cellTriples before.length t after) :
    u ∈ triples r (.iri node) (before ++ t :: after) := by
  have inner : ∀ (n : Nat) (before : List PlannedTest), u ∈ cellTriples (n + before.length) t after →
      u ∈ listTriples n (before ++ t :: after) := by
    intro n before
    induction before generalizing n with
    | nil => exact fun h => List.mem_append_right _ h
    | cons b before ih =>
      intro h
      refine List.mem_append_left _ (ih (n + 1) ?_)
      rwa [List.length_cons, Nat.add_comm before.length, ← Nat.add_assoc] at h
  refine List.mem_append_right _ (inner 0 before ?_)
  rwa [Nat.zero_add]

end Lookup

/-- What a plan says about itself. -/
theorem objectsIn_headTriples (r : PlanRequest) (node : Term) (ts : List PlannedTest) :
    objectsIn (headTriples r node ts) node (manifest "entries") = [listHead 0 ts] ∧
    objectsIn (headTriples r node ts) node (Vocab.rdfs "comment") = r.description.toList.map .plain ∧
    objectsIn (headTriples r node ts) node (Vocab.plan "path") = r.programs.toList.map .plain := by
  have apart := Vocab.predicates_spec.1.2.2.1
  simp only [List.nodup_cons, List.mem_cons, List.not_mem_nil, or_false, not_or, List.nodup_nil,
    and_true] at apart
  obtain ⟨⟨te, tc, tp⟩, ⟨ec, ep⟩, cp, -⟩ := apart
  unfold headTriples
  simp [objectsIn, List.filter_map, Function.comp_def, te, tc, tp, ec, ep, cp, Ne.symm ec, Ne.symm ep,
    Ne.symm cp]

/-- What a plan says about a test. -/
theorem objectsIn_testTriples_id (kind : TestKind) (n : Nat) (t : PlannedTest) :
    objectsIn (testTriples kind n t) (.iri t.id) (rdf "type") = [.iri kind.iri] ∧
    objectsIn (testTriples kind n t) (.iri t.id) (manifest "name") = [.plain t.name] ∧
    objectsIn (testTriples kind n t) (.iri t.id) (manifest "action") =
      [if isBare kind then .iri t.query else actionNode n] ∧
    objectsIn (testTriples kind n t) (.iri t.id) (manifest "result") =
      if isBare kind then [] else t.result.toList.map .iri := by
  have apart := Vocab.predicates_spec.1.1
  simp only [List.nodup_cons, List.mem_cons, List.not_mem_nil, or_false, not_or, List.nodup_nil,
    and_true] at apart
  obtain ⟨⟨tn, ta, tr⟩, ⟨na, nr⟩, ar, -⟩ := apart
  have other := actionNode_ne_iri n t.id
  unfold testTriples
  cases isBare kind with
  | true => simp [objectsIn, tn, ta, tr, na, nr, ar, Ne.symm tn, Ne.symm ta, Ne.symm na]
  | false =>
    simp [objectsIn, other, List.filter_map, Function.comp_def, tn, ta, tr, na, nr, ar, Ne.symm tn,
      Ne.symm ta, Ne.symm tr, Ne.symm na, Ne.symm nr, Ne.symm ar]

/-- What a plan says about the action of a test. -/
theorem objectsIn_testTriples_action {kind : TestKind} (n : Nat) (t : PlannedTest) (whole : isBare kind = false) :
    objectsIn (testTriples kind n t) (actionNode n) (Vocab.query "query") = [.iri t.query] ∧
    objectsIn (testTriples kind n t) (actionNode n) (Vocab.query "data") = t.data.map .iri ∧
    objectsIn (testTriples kind n t) (actionNode n) (Vocab.update "data") = [] := by
  have apart := Vocab.predicates_spec.1.2.1
  simp only [List.nodup_cons, List.mem_cons, List.not_mem_nil, or_false, not_or, List.nodup_nil,
    and_true] at apart
  obtain ⟨⟨qd, qu⟩, du, -⟩ := apart
  have other : Term.iri t.id ≠ actionNode n := nofun
  unfold testTriples
  simp [whole, objectsIn, other, List.filter_map, Function.comp_def, qd, qu, du, Ne.symm qd]

/-- What a plan says about a cell of its list. -/
theorem objectsIn_cellTriples (n : Nat) (t : PlannedTest) (after : List PlannedTest) :
    objectsIn (cellTriples n t after) (cellNode n) (rdf "first") = [.iri t.id] ∧
    objectsIn (cellTriples n t after) (cellNode n) (rdf "rest") = [listHead (n + 1) after] := by
  have apart := Vocab.predicates_spec.1.2.2.2
  simp only [List.nodup_cons, List.mem_cons, List.not_mem_nil, or_false, List.nodup_nil, and_true]
    at apart
  obtain ⟨fr, -⟩ := apart
  unfold cellTriples
  simp [objectsIn, fr, Ne.symm fr]

end Plan

/-- The IRIs of a planned test are absolute. -/
structure PlannedTest.HasIris (t : PlannedTest) : Prop where
  id : isIri t.id = true
  query : isIri t.query = true
  data : ∀ d ∈ t.data, isIri d = true
  result : ∀ r ∈ t.result, isIri r = true

namespace Plan

section Readable

variable {r : PlanRequest} {kind : TestKind} {n : Nat} {t : PlannedTest} {ts : List PlannedTest} {u : Triple}

theorem isReadable_listHead (n : Nat) (ts : List PlannedTest) : (listHead n ts).IsReadable := by
  have planned := Vocab.isAbsolute_planned
  simp only [List.forall_mem_cons] at planned
  obtain ⟨-, -, -, nil, -⟩ := planned
  cases ts with
  | nil => exact nil
  | cons t ts => trivial

theorem SaysOfPlan.isReadable {node : String} (hnode : isIri node = true)
    (h : SaysOfPlan r (.iri node) ts u) : u.IsReadable := by
  have planned := Vocab.isAbsolute_planned
  simp only [List.forall_mem_cons] at planned
  obtain ⟨type, -, -, -, comment, manifest, entries, -, -, -, -, -, path, -⟩ := planned
  cases h with
  | type => exact ⟨hnode, nofun, type, manifest⟩
  | entries => exact ⟨hnode, nofun, entries, isReadable_listHead 0 ts⟩
  | comment => exact ⟨hnode, nofun, comment, trivial⟩
  | path => exact ⟨hnode, nofun, path, trivial⟩

theorem SaysOfTest.isReadable (hkind : isIri kind.iri = true) (ht : t.HasIris)
    (h : SaysOfTest kind n t u) : u.IsReadable := by
  have planned := Vocab.isAbsolute_planned
  simp only [List.forall_mem_cons] at planned
  obtain ⟨type, -, -, -, -, -, -, name, action, result, query, data, -⟩ := planned
  cases h with
  | type => exact ⟨ht.id, nofun, type, hkind⟩
  | name => exact ⟨ht.id, nofun, name, trivial⟩
  | bare => exact ⟨ht.id, nofun, action, ht.query⟩
  | action => exact ⟨ht.id, nofun, action, trivial⟩
  | query => exact ⟨trivial, nofun, query, ht.query⟩
  | data d hd => exact ⟨trivial, nofun, data, ht.data d hd⟩
  | result e he => exact ⟨ht.id, nofun, result, ht.result e he⟩

theorem isReadable_of_mem_cellTriples (ht : t.HasIris) {after : List PlannedTest}
    (h : u ∈ cellTriples n t after) : u.IsReadable := by
  have planned := Vocab.isAbsolute_planned
  simp only [List.forall_mem_cons] at planned
  obtain ⟨-, first, rest, -⟩ := planned
  simp only [cellTriples, List.mem_cons, List.not_mem_nil, or_false] at h
  rcases h with rfl | rfl
  · exact ⟨trivial, nofun, first, ht.id⟩
  · exact ⟨trivial, nofun, rest, isReadable_listHead (n + 1) after⟩

/-- The triples of a plan can be written and read. -/
theorem isReadable_triples {node : String} (hnode : isIri node = true)
    (hkind : isIri r.testKind.iri = true) (hts : ∀ t ∈ ts, t.HasIris) :
    ∀ u ∈ triples r (.iri node) ts, u.IsReadable := by
  intro u hu
  rcases mem_triples hu with head | ⟨m, t, ht, test⟩ | ⟨m, t, ht, after, cell⟩
  · exact head.isReadable hnode
  · exact test.isReadable hkind (hts t ht)
  · exact isReadable_of_mem_cellTriples (hts t ht) cell

end Readable

section Labels

variable {r : PlanRequest} {node : String} {ts : List PlannedTest} {u : Triple}

/-- The labels that plans give to their blank nodes. -/
def IsOwnLabel (l : String) : Prop := ∃ n : Nat, l = "action" ++ toString n ∨ l = "cell" ++ toString n

theorem isPlainLabel_of_isOwnLabel {l : String} (h : IsOwnLabel l) : IsPlainLabel l := by
  obtain ⟨n, rfl | rfl⟩ := h
  · exact isPlainLabel_append_number (by decide) (by decide) n
  · exact isPlainLabel_append_number (by decide) (by decide) n

theorem isOwnLabel_of_listHead {n : Nat} {l : String} (h : (listHead n ts).label? = some l) :
    IsOwnLabel l := by
  cases ts with
  | nil => cases h
  | cons t ts => exact ⟨n, .inr (Option.some.inj h).symm⟩

/-- A plan has no labels but its own. -/
theorem isOwnLabel_of_mem_triples (hu : u ∈ triples r (.iri node) ts) {l : String} (hl : l ∈ u.labels) :
    IsOwnLabel l := by
  rw [Triple.mem_labels] at hl
  rcases mem_triples hu with head | ⟨m, t, ht, test⟩ | ⟨m, t, ht, after, cell⟩
  · cases head with
    | entries => exact isOwnLabel_of_listHead (hl.resolve_left nofun)
    | type => rcases hl with h | h <;> cases h
    | comment => rcases hl with h | h <;> cases h
    | path => rcases hl with h | h <;> cases h
  · cases test with
    | action =>
      rcases hl with h | h
      · cases h
      · exact ⟨m, .inl (Option.some.inj h).symm⟩
    | query =>
      rcases hl with h | h
      · exact ⟨m, .inl (Option.some.inj h).symm⟩
      · cases h
    | data =>
      rcases hl with h | h
      · exact ⟨m, .inl (Option.some.inj h).symm⟩
      · cases h
    | _ => rcases hl with h | h <;> cases h
  · rcases hl with subject | object
    · rw [subject_of_mem_cellTriples cell] at subject
      exact ⟨m, .inr (Option.some.inj subject).symm⟩
    · simp only [cellTriples, List.mem_cons, List.not_mem_nil, or_false] at cell
      rcases cell with rfl | rfl
      · cases object
      · exact isOwnLabel_of_listHead object

/-- Plans may be written with their own labels. -/
theorem freshLabels_own : TripleIndex.FreshLabels id (triples r (.iri node) ts) :=
  TripleIndex.freshLabels_id fun _ hu _ hl => isPlainLabel_of_isOwnLabel (isOwnLabel_of_mem_triples hu hl)

end Labels

end Plan

end SparqlConformance
