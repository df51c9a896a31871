import Mathlib.Data.List.Dedup
import SparqlConformance.Answers.ResultSetGraph
import SparqlConformance.Proofs.IndexedTriples
import SparqlConformance.Proofs.NamedRows
import SparqlConformance.Proofs.PrintedRows
import SparqlConformance.Proofs.WrittenNumbers
/-!
# Written result sets

A sequence of solutions written with the result set vocabulary: a node for the result set, one for each
solution and one for each binding. An index answers from the triples of these nodes whatever their order, except
that several values of one property may change places. Rows do not depend on the order of their bindings,
and solutions are put back in their places by their indexes, which are compared as numbers.
-/
namespace SparqlConformance

open Vocab (resultSet)

/-! ## Triples by their subjects -/

namespace Grouping

/-- The triples of a grouping, subject by subject. -/
def triples (g : Grouping) : List Triple :=
  g.flatMap fun group => group.2.map fun p => ⟨group.1, p.1, p.2⟩

/-- The objects that stand under a predicate. -/
def values (ps : List Property) (predicate : String) : List Term :=
  (ps.filter fun p => p.1 = predicate).map Prod.snd

variable {ps : List Property} {predicate : String}

@[simp] theorem values_nil : values [] predicate = [] := rfl

theorem values_cons (p : Property) : values (p :: ps) predicate =
    (if p.1 = predicate then [p.2] else []) ++ values ps predicate := by
  by_cases h : p.1 = predicate <;> simp [values, h]

@[simp] theorem values_append (qs : List Property) :
    values (ps ++ qs) predicate = values ps predicate ++ values qs predicate := by
  simp [values]

/-- Properties that are all of one predicate. -/
@[simp] theorem values_map {α : Type} (p : String) (f : α → Term) (as : List α) :
    values (as.map fun a => (p, f a)) predicate = if p = predicate then as.map f else [] := by
  by_cases h : p = predicate <;> simp [values, List.filter_map, Function.comp_def, h]

theorem objectsIn_map (s : Term) (ps : List Property) (predicate : String) :
    TripleIndex.objectsIn (ps.map fun p => ⟨s, p.1, p.2⟩) s predicate = values ps predicate := by
  simp [TripleIndex.objectsIn, values, List.filter_map, Function.comp_def]

/-- What is said of one of different subjects is what its group says. -/
theorem objectsIn_triples {g : Grouping} (distinct : (g.map Prod.fst).Nodup) {s : Term}
    (h : (s, ps) ∈ g) : TripleIndex.objectsIn g.triples s predicate = values ps predicate := by
  induction g with
  | nil => cases h
  | cons group g ih =>
    obtain ⟨new, distinct⟩ := List.nodup_cons.mp distinct
    rw [triples, List.flatMap_cons, TripleIndex.objectsIn_append]
    rcases List.mem_cons.mp h with rfl | later
    · rw [objectsIn_map, TripleIndex.objectsIn_eq_nil, List.append_nil]
      simp only [List.mem_flatMap, List.mem_map]
      rintro t ⟨other, hother, p, -, rfl⟩ same
      exact new (List.mem_map.mpr ⟨other, hother, same⟩)
    · rw [TripleIndex.objectsIn_eq_nil, List.nil_append]
      · exact ih distinct later
      · simp only [List.mem_map]
        rintro t ⟨p, -, rfl⟩ same
        exact new (List.mem_map.mpr ⟨_, later, same.symm⟩)

theorem mem_triples {g : Grouping} {t : Triple} :
    t ∈ g.triples ↔ ∃ ps, (t.subject, ps) ∈ g ∧ t.property ∈ ps := by
  simp only [triples, List.mem_flatMap, List.mem_map]
  constructor
  · rintro ⟨group, hgroup, p, hp, rfl⟩
    exact ⟨group.2, hgroup, hp⟩
  · rintro ⟨ps, hgroup, hp⟩
    exact ⟨_, hgroup, _, hp, rfl⟩

end Grouping

namespace TripleIndex

theorem objectsIn_perm {ts us : List Triple} (perm : ts.Perm us) (s : Term) (p : String) :
    (objectsIn ts s p).Perm (objectsIn us s p) := (perm.filter _).map _

theorem mem_objectsIn {ts : List Triple} {s o : Term} {p : String} :
    o ∈ objectsIn ts s p ↔ ⟨s, p, o⟩ ∈ ts := by
  simp only [objectsIn, List.mem_map, List.mem_filter, decide_eq_true_eq]
  constructor
  · rintro ⟨t, ⟨ht, rfl, rfl⟩, rfl⟩
    exact ht
  · exact fun h => ⟨_, ⟨h, rfl, rfl⟩, rfl⟩

theorem objects_insertAll_empty (source : String) (ts : List Triple) (s : Term) (p : String) :
    ((empty source).insertAll ts).objects s p = objectsIn ts s p := objects_insertAll _ _ _ _

end TripleIndex

namespace ResultSet

/-! ## The triples of a result set -/

/-- A solution, its place among the others, and the nodes that stand for it and for its bindings. -/
structure WrittenSolution where
  row : Solution
  position : Nat
  /-- The position as it is written. -/
  index : Literal
  node : Term
  bindingNode : String → Term

/-- A result set, the nodes that stand for it included. -/
structure WrittenSet where
  vars : List String
  solutions : List WrittenSolution
  node : Term

def WrittenSolution.groups (s : WrittenSolution) : Grouping :=
  (s.node, (resultSet "index", .literal s.index) ::
      s.row.bindings.map fun b => (resultSet "binding", s.bindingNode b.1)) ::
    s.row.bindings.map fun b =>
      (s.bindingNode b.1, [(resultSet "variable", .plain b.1), (resultSet "value", b.2)])

namespace WrittenSet

def rows (w : WrittenSet) : List Solution := w.solutions.map WrittenSolution.row

def setProperties (w : WrittenSet) : List Property :=
  (Vocab.rdf "type", .iri (resultSet "ResultSet")) ::
    ((w.vars.map fun v => (resultSet "resultVariable", .plain v)) ++
      w.solutions.map fun s => (resultSet "solution", s.node))

def groups (w : WrittenSet) : Grouping :=
  (w.node, w.setProperties) :: w.solutions.flatMap WrittenSolution.groups

def triples (w : WrittenSet) : List Triple := w.groups.triples

def nodes (w : WrittenSet) : List Term := w.groups.map Prod.fst

/-- Rows over the variables, told apart by their nodes and put in order by their positions. -/
structure IsProper (w : WrittenSet) : Prop where
  distinct : w.nodes.Nodup
  declared : ∀ s ∈ w.solutions, ∀ v ∈ s.row.names, v ∈ w.vars
  spelled : ∀ s ∈ w.solutions, SpellsNumber s.index.value s.position
  below : ∀ s ∈ w.solutions, s.position < 2 ^ 64
  increasing : w.solutions.Pairwise fun s t => s.position < t.position

/-- Triples that say nothing about the nodes of a result set, and mark no other one. -/
def IsApart (w : WrittenSet) (others : List Triple) : Prop :=
  ∀ t ∈ others, t.subject ∉ w.nodes ∧ t.property ≠ (Vocab.rdf "type", .iri (resultSet "ResultSet"))

end WrittenSet

@[simp] theorem resultSet_inj {a b : String} : resultSet a = resultSet b ↔ a = b :=
  String.append_right_inj _

@[simp] theorem type_ne_resultSet (name : String) : Vocab.rdf "type" ≠ resultSet name := by
  intro same
  have whole : resultSet "" ++ name = resultSet name := congrArg (· ++ name) String.append_empty
  have start : (resultSet "").toList <+: (Vocab.rdf "type").toList := by
    rw [same, ← whole, String.toList_append]
    exact List.prefix_append _ _
  exact absurd start (by decide +kernel)

@[simp] theorem resultSet_ne_type (name : String) : resultSet name ≠ Vocab.rdf "type" :=
  (type_ne_resultSet name).symm

/-! ## What an index tells of it -/

/-- An index that was told the triples of a result set in some order, and nothing else about its nodes. -/
structure Tells (index : TripleIndex) (w : WrittenSet) : Prop where
  marked : ∀ s, index.contains s (Vocab.rdf "type") (.iri (resultSet "ResultSet")) = true ↔ s = w.node
  known : w.node ∈ index.subjects
  objects : ∀ s ps, (s, ps) ∈ w.groups → ∀ p, (index.objects s p).Perm (Grouping.values ps p)

variable {index : TripleIndex} {w : WrittenSet}

/-- The only node that is marked as a result set. -/
theorem mem_groups_type {s : Term} {ps : List Property} (h : (s, ps) ∈ w.groups)
    (marked : (Vocab.rdf "type", .iri (resultSet "ResultSet")) ∈ ps) : s = w.node := by
  rcases List.mem_cons.mp h with same | inner
  · exact (Prod.mk.inj same).1
  · obtain ⟨solution, -, hgroup⟩ := List.mem_flatMap.mp inner
    rcases List.mem_cons.mp hgroup with same | binding
    · obtain ⟨-, rfl⟩ := Prod.mk.inj same
      simp at marked
    · obtain ⟨b, -, same⟩ := List.mem_map.mp binding
      obtain ⟨-, rfl⟩ := Prod.mk.inj same
      simp at marked

/-- The order in which the triples are put into an index does not matter. -/
theorem tells_insertAll (distinct : w.nodes.Nodup) {others ts : List Triple} (apart : w.IsApart others)
    (perm : ts.Perm (w.triples ++ others)) (source : String) :
    Tells ((TripleIndex.empty source).insertAll ts) w := by
  have holds := (TripleIndex.holds_empty source).insertAll ts
  rw [List.nil_append] at holds
  have mark : (⟨w.node, Vocab.rdf "type", .iri (resultSet "ResultSet")⟩ : Triple) ∈ w.triples :=
    Grouping.mem_triples.mpr ⟨_, List.mem_cons_self .., List.mem_cons_self ..⟩
  refine ⟨fun s => ?_, ?_, fun s ps hgroup p => ?_⟩
  · rw [TripleIndex.contains_iff, TripleIndex.objects_insertAll_empty, TripleIndex.mem_objectsIn,
      perm.mem_iff, List.mem_append]
    constructor
    · rintro (own | foreign)
      · obtain ⟨ps, hgroup, hp⟩ := Grouping.mem_triples.mp own
        exact mem_groups_type hgroup hp
      · exact absurd rfl (apart _ foreign).2
    · rintro rfl
      exact .inl mark
  · rw [holds.subjects, List.mem_eraseDups]
    exact List.mem_map.mpr ⟨_, perm.mem_iff.mpr (List.mem_append_left _ mark), rfl⟩
  · rw [TripleIndex.objects_insertAll_empty]
    have silent : TripleIndex.objectsIn others s p = [] := by
      refine TripleIndex.objectsIn_eq_nil (fun t ht same => (apart t ht).1 ?_) p
      exact same ▸ List.mem_map_of_mem hgroup
    have own := TripleIndex.objectsIn_perm perm s p
    rwa [TripleIndex.objectsIn_append, silent, List.append_nil, WrittenSet.triples,
      Grouping.objectsIn_triples distinct hgroup] at own

theorem mem_groups_of_mem {s : WrittenSolution} (member : s ∈ w.solutions) {group : Term × List Property}
    (h : group ∈ s.groups) : group ∈ w.groups :=
  List.mem_cons_of_mem _ (List.mem_flatMap.mpr ⟨s, member, h⟩)

namespace Tells

variable (tells : Tells index w)

include tells

theorem object?_eq {s o : Term} {ps : List Property} {p : String} (h : (s, ps) ∈ w.groups)
    (only : Grouping.values ps p = [o]) : index.object? s p = some o := by
  have values := tells.objects s ps h p
  rw [only, List.perm_singleton] at values
  rw [TripleIndex.object?, values, List.head?_cons]

theorem node?_eq : node? index = some w.node := by
  have found : index.subjects.find?
      (fun s => index.contains s (Vocab.rdf "type") (.iri (resultSet "ResultSet"))) = some w.node := by
    cases h : index.subjects.find?
        (fun s => index.contains s (Vocab.rdf "type") (.iri (resultSet "ResultSet"))) with
    | none =>
      exact absurd ((tells.marked _).mpr rfl) (List.find?_eq_none.mp h _ tells.known)
    | some s =>
      have marked := List.find?_some h
      rw [(tells.marked s).mp marked]
  rw [node?, found]
  rfl

theorem boolean_eq_none : index.object? w.node (resultSet "boolean") = none := by
  have values := tells.objects w.node w.setProperties (List.mem_cons_self ..) (resultSet "boolean")
  have none_said : Grouping.values w.setProperties (resultSet "boolean") = [] := by
    simp [WrittenSet.setProperties, Grouping.values_cons]
  rw [none_said, List.perm_nil] at values
  rw [TripleIndex.object?, values, List.head?_nil]

theorem vars_perm : (vars index w.node).Perm w.vars := by
  have values := tells.objects w.node w.setProperties (List.mem_cons_self ..) (resultSet "resultVariable")
  have said : Grouping.values w.setProperties (resultSet "resultVariable") = w.vars.map Term.plain := by
    simp [WrittenSet.setProperties, Grouping.values_cons]
  rw [said] at values
  refine (values.filterMap _).trans (.of_eq ?_)
  rw [List.filterMap_map]
  exact List.filterMap_some

section OneSolution

variable {s : WrittenSolution} (member : s ∈ w.solutions)

include member

/-- The node of a binding tells its variable and its value. -/
theorem binding?_eq {b : Binding} (bound : b ∈ s.row.bindings) :
    binding? index (s.bindingNode b.1) = some b := by
  have group := mem_groups_of_mem member (List.mem_cons_of_mem _ (List.mem_map_of_mem bound))
  have name := tells.object?_eq (p := resultSet "variable") (o := .plain b.1) group (by simp [Grouping.values_cons])
  have value := tells.object?_eq (p := resultSet "value") (o := b.2) group (by simp [Grouping.values_cons])
  rw [binding?, name, value]
  rfl

/-- The bindings of a solution may be found in any order. -/
theorem row_eq : row index s.node = s.row := by
  have found := tells.objects _ _ (mem_groups_of_mem member (List.mem_cons_self ..)) (resultSet "binding")
  have said : Grouping.values ((resultSet "index", .literal s.index) ::
      s.row.bindings.map fun b => (resultSet "binding", s.bindingNode b.1)) (resultSet "binding") =
      s.row.bindings.map fun b => s.bindingNode b.1 := by
    simp [Grouping.values_cons]
  have read : (s.row.bindings.map fun b => s.bindingNode b.1).filterMap (binding? index) = s.row.bindings := by
    rw [List.filterMap_map]
    exact (List.filterMap_congr fun b bound => tells.binding?_eq member bound).trans List.filterMap_some
  have pairs := found.filterMap (binding? index)
  rw [said, read] at pairs
  have once : (s.row.bindings.map Prod.fst).Nodup := s.row.increasing.nodup_names
  refine Solution.ext_get? fun name => congrArg (List.lookup name) ?_
  rw [row, Solution.bindings_ofPairs, ← Members.ofPairs_eq_of_perm once pairs.symm,
    Members.ofPairs_of_increasing s.row.increasing]

theorem position_eq (proper : w.IsProper) : position index s.node = .ok (some s.position) := by
  have written := tells.object?_eq (p := resultSet "index") (o := .literal s.index)
    (mem_groups_of_mem member (List.mem_cons_self ..)) (by simp [Grouping.values_cons])
  have below : s.position < twoTo 64 := proper.below s member
  have read := Text.decimalBelow?_of_spellsNumber (proper.spelled s member) below
  rw [position, written]
  simp only [read]

end OneSolution

/-- The solutions are all read, each with its row and its position. -/
theorem exists_solutions_eq (proper : w.IsProper) : ∃ found, solutions index w.node = .ok found ∧
    found.Perm (w.solutions.map fun s => (some s.position, s.row)) := by
  have values := tells.objects w.node w.setProperties (List.mem_cons_self ..) (resultSet "solution")
  have said : Grouping.values w.setProperties (resultSet "solution") = w.solutions.map WrittenSolution.node := by
    simp [WrittenSet.setProperties, Grouping.values_cons]
  rw [said] at values
  let read (node : Term) : Option Nat × Solution := ((position index node).toOption.join, row index node)
  have written : ∀ s ∈ w.solutions, read s.node = (some s.position, s.row) := by
    intro s member
    show ((position index s.node).toOption.join, row index s.node) = _
    rw [tells.position_eq member proper, tells.row_eq member]
    rfl
  refine ⟨_, mapM_eq_pure (g := read) fun node found => ?_, ?_⟩
  · obtain ⟨s, member, rfl⟩ := List.mem_map.mp (values.mem_iff.mp found)
    rw [written s member, tells.position_eq member proper, tells.row_eq member]
    rfl
  · have whole := values.map read
    rw [List.map_map] at whole
    exact whole.trans (List.Perm.of_eq (List.map_congr_left written))

end Tells

/-! ## Solutions in their places -/

theorem comesBefore_total (a b : Option Nat) : (comesBefore a b || comesBefore b a) = true := by
  cases a <;> cases b <;> simp [comesBefore]
  omega

theorem comesBefore_trans (a b c : Option Nat) (ab : comesBefore a b = true) (bc : comesBefore b c = true) :
    comesBefore a c = true := by
  cases a <;> cases b <;> cases c <;> simp_all [comesBefore]
  omega

theorem comesBefore_antisymm {a b : Option Nat} (ab : comesBefore a b = true) (ba : comesBefore b a = true) :
    a = b := by
  cases a <;> cases b <;> simp_all [comesBefore]
  omega

/-- Solutions whose positions increase are the sorted form of any order of theirs. -/
theorem mergeSort_of_perm {found written : List (Option Nat × Solution)} (perm : found.Perm written)
    (once : (written.map Prod.fst).Nodup) (increasing : written.Pairwise fun a b => comesBefore a.1 b.1 = true) :
    (found.mergeSort fun a b => comesBefore a.1 b.1) = written := by
  have same := List.mergeSort_perm found fun a b => comesBefore a.1 b.1
  have sorted : (found.mergeSort fun a b => comesBefore a.1 b.1).Pairwise fun a b => comesBefore a.1 b.1 = true :=
    List.pairwise_mergeSort (fun a b c => comesBefore_trans a.1 b.1 c.1) (fun a b => comesBefore_total a.1 b.1) found
  refine List.Perm.eq_of_pairwise (fun a b ha hb ab ba => ?_) sorted increasing (same.trans perm)
  exact List.inj_on_of_nodup_map once ((same.trans perm).mem_iff.mp ha) hb (comesBefore_antisymm ab ba)

theorem vars_pushAll {b : Solutions} {rows : List Solution}
    (declared : ∀ row ∈ rows, ∀ v ∈ row.names, v ∈ b.vars) : (b.pushAll rows).vars = b.vars := by
  induction rows generalizing b with
  | nil => rfl
  | cons row rows ih =>
    have step : (b.push row).vars = b.vars := declareAll_of_subset (declared row (List.mem_cons_self ..))
    have rest := ih (b := b.push row) fun other later => step ▸ declared other (List.mem_cons_of_mem _ later)
    exact rest.trans step

/-- What is written as a result set, its triples in any order and among others, is decoded as it was: the rows in
their order, and the variables, each once. -/
theorem ofResultSetGraph_of_perm {w : WrittenSet} (proper : w.IsProper) {others ts : List Triple}
    (apart : w.IsApart others) (perm : ts.Perm (w.triples ++ others)) (source : String) :
    ∃ answer, ofResultSetGraph ((TripleIndex.empty source).insertAll ts) = .ok (.solutions answer) ∧
      answer.rows = w.rows ∧ answer.vars.Perm w.vars.dedup := by
  have tells := tells_insertAll proper.distinct apart perm source
  generalize (TripleIndex.empty source).insertAll ts = index at tells
  obtain ⟨found, read, each⟩ := tells.exists_solutions_eq proper
  have positions : (w.solutions.map fun s => (some s.position, s.row)).Pairwise fun a b =>
      comesBefore a.1 b.1 = true := by
    rw [List.pairwise_map]
    exact proper.increasing.imp fun below => decide_eq_true (Nat.le_of_lt below)
  have once : ((w.solutions.map fun s => (some s.position, s.row)).map Prod.fst).Nodup := by
    rw [List.map_map, List.Nodup, List.pairwise_map]
    exact proper.increasing.imp fun below same => Nat.ne_of_lt below (Option.some.inj same)
  have sorted := mergeSort_of_perm each once positions
  have rows : (found.mergeSort fun a b => comesBefore a.1 b.1).map Prod.snd = w.rows := by
    rw [sorted, List.map_map]
    rfl
  have declared : ∀ v, v ∈ (Solutions.ofVariables (vars index w.node)).vars ↔ v ∈ w.vars := by
    intro v
    rw [Solutions.ofVariables, mem_declareAll, tells.vars_perm.mem_iff]
    exact or_iff_right List.not_mem_nil
  refine ⟨(Solutions.ofVariables (vars index w.node)).pushAll w.rows, ?_, ?_, ?_⟩
  · rw [ofResultSetGraph, tells.node?_eq]
    simp only [tells.boolean_eq_none, read, ← rows]
    rfl
  · rw [Simple.rows_pushAll]
    rfl
  · rw [vars_pushAll]
    · refine (List.perm_ext_iff_of_nodup (nodup_declareAll List.nodup_nil _) (List.nodup_dedup _)).mpr fun v => ?_
      exact (declared v).trans List.mem_dedup.symm
    · intro row hrow v bound
      obtain ⟨s, member, rfl⟩ := List.mem_map.mp hrow
      exact (declared v).mpr (proper.declared s member v bound)

/-- Two solutions whose indexes stand in another order as texts. -/
def nineAndTen : WrittenSet where
  vars := ["y", "x"]
  solutions :=
    [⟨Solution.ofPairs [("x", .plain "a"), ("y", .blank "results")], 9, .plain "9", .blank "nine",
        fun v => .blank ("nine." ++ v)⟩,
      ⟨Solution.ofPairs [("x", .iri "http://e/b")], 10, .plain "+010", .blank "ten",
        fun v => .blank ("ten." ++ v)⟩]
  node := .blank "results"

theorem nineAndTen_isProper : nineAndTen.IsProper where
  distinct := by decide +kernel
  declared := by decide +kernel
  spelled := by
    intro s member
    rcases List.mem_pair.mp member with rfl | rfl
    · exact ⟨[], by decide, 0, by decide +kernel⟩
    · exact ⟨['+'], by decide, 1, by decide +kernel⟩
  below := by decide +kernel
  increasing := by decide +kernel

/-- What is told of another node. -/
def otherNode : List Triple := [⟨.blank "other", resultSet "index", .plain "9"⟩]

theorem isApart_otherNode : nineAndTen.IsApart otherNode := by
  intro t ht
  obtain rfl := List.mem_singleton.mp ht
  decide +kernel

/-- The triples are told from the last to the first. -/
theorem ofResultSetGraph_nineAndTen : nineAndTen.IsProper ∧ nineAndTen.IsApart otherNode ∧
    ∃ answer, ofResultSetGraph ((TripleIndex.empty "results.ttl").insertAll
        (nineAndTen.triples ++ otherNode).reverse) = .ok (.solutions answer) ∧
      answer.rows = nineAndTen.rows ∧ answer.vars.Perm nineAndTen.vars.dedup :=
  ⟨nineAndTen_isProper, isApart_otherNode, ofResultSetGraph_of_perm nineAndTen_isProper isApart_otherNode
    (List.reverse_perm _) "results.ttl"⟩

end ResultSet

end SparqlConformance
