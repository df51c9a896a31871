import Mathlib.Data.Nat.Find
import SparqlConformance.Proofs.ManifestLists
/-!
# Walks along lists

A list of a manifest is read by walking from cell to cell until the empty list is reached. The graph may be any
graph: a walk that comes back to a cell that it has seen is given up, and since only subjects have something
after them, every walk comes to an end. No walk that would reach the empty list is given up.
-/
namespace SparqlConformance.Manifest

variable {index : TripleIndex}

/-- The cell at a distance from the head of a list: from each cell on to the first value of its rest. -/
def cell? (index : TripleIndex) (head : Term) : Nat → Option Term
  | 0 => some head
  | n + 1 => (cell? index head n).bind fun c => index.object? c (Vocab.rdf "rest")

/-- The empty list stands at a distance, and what stands before it can be a cell. -/
structure EndsAfter (index : TripleIndex) (head : Term) (n : Nat) : Prop where
  empty : cell? index head n = some nil
  nodes : ∀ k < n, ∀ l, cell? index head k ≠ some (.literal l)

/-- The items of the cells that are closer to the head than a distance; a cell without an item is left out. -/
def itemsBefore (index : TripleIndex) (head : Term) (n : Nat) : List Term :=
  (List.range n).filterMap fun k => (cell? index head k).bind fun c => index.object? c (Vocab.rdf "first")

/-- How many subjects a walk has not seen yet. -/
def unseen (index : TripleIndex) (seen : List Term) : Nat :=
  (index.subjects.filter fun s => s ∉ seen).length

/-- A cell that has something after it is a subject, and there is one less to see behind it. -/
theorem unseen_cons_lt {seen : List Term} {cell rest : Term} (fresh : cell ∉ seen)
    (next : index.object? cell (Vocab.rdf "rest") = some rest) :
    unseen index (cell :: seen) < unseen index seen := by
  have kept : (index.subjects.filter fun s => s ∉ cell :: seen) =
      (index.subjects.filter fun s => s ∉ seen).filter fun s => s ≠ cell := by
    rw [List.filter_filter]
    refine List.filter_congr fun s _ => ?_
    simp [not_or]
  have present : cell ∈ index.subjects.filter fun s => s ∉ seen :=
    List.mem_filter.mpr ⟨mem_subjects_of_object? next, decide_eq_true fresh⟩
  rw [unseen, unseen, kept]
  exact List.length_filter_lt_length_iff_exists.mpr ⟨cell, present, by simp⟩

/-- Walks on from a cell, with the cells that were seen and the items that were found before. -/
def walk (index : TripleIndex) (seen items : List Term) (cell : Term) : Option (List Term) :=
  if cell = nil then some items
  else match cell with
    | .literal _ => none
    | cell =>
      if cell ∈ seen then none
      else match _next : index.object? cell (Vocab.rdf "rest") with
        | none => none
        | some rest => walk index (cell :: seen) (items ++ (index.object? cell (Vocab.rdf "first")).toList) rest
termination_by unseen index seen
decreasing_by exact unseen_cons_lt ‹_› ‹_›

variable {seen items : List Term} {cell : Term}

theorem walk_nil : walk index seen items nil = some items := by
  rw [walk.eq_def, if_pos rfl]

theorem walk_cell (inner : cell ≠ nil) (node : ∀ l, cell ≠ .literal l) (fresh : cell ∉ seen) :
    walk index seen items cell = (index.object? cell (Vocab.rdf "rest")).bind fun rest =>
      walk index (cell :: seen) (items ++ (index.object? cell (Vocab.rdf "first")).toList) rest := by
  rw [walk, if_neg inner, if_neg fresh]
  · split <;> rename_i next <;> simp only [next, Option.bind_none, Option.bind_some]
  · exact fun l h => node l h

/-- A list is walked to its end when every cell that was seen is farther from the end. -/
theorem walk_of_rdfList {n : Nat} {more : List Term} (list : RdfList index n cell more)
    (behind : ∀ s ∈ seen, ∃ m others, n < m ∧ RdfList index m s others) :
    walk index seen items cell = some (items ++ more) := by
  induction list generalizing seen items with
  | nil => rw [walk_nil, List.append_nil]
  | @cell n cell rest more inner node next list ih =>
    have whole := RdfList.cell inner node next list
    have fresh : cell ∉ seen := by
      intro known
      obtain ⟨m, others, farther, again⟩ := behind cell known
      have := (whole.unique again).1
      omega
    rw [walk_cell inner node fresh, next, Option.bind_some, ih, List.append_assoc]
    intro s hs
    rcases List.mem_cons.mp hs with rfl | hs
    · exact ⟨n + 1, _, Nat.lt_succ_self n, whole⟩
    · obtain ⟨m, others, farther, list⟩ := behind s hs
      exact ⟨m, others, by omega, list⟩

/-- A walk that reaches the empty list went along a list. -/
theorem exists_rdfList_of_walk {found : List Term} (h : walk index seen items cell = some found) :
    ∃ n more, RdfList index n cell more ∧ found = items ++ more := by
  fun_induction walk index seen items cell with
  | case1 seen items => exact ⟨0, [], .nil, by rw [List.append_nil, ← Option.some.inj h]⟩
  | case2 => cases h
  | case3 => cases h
  | case4 => cases h
  | case5 seen items cell node fresh rest next inner ih =>
    obtain ⟨n, more, list, rfl⟩ := ih h
    exact ⟨n + 1, _, .cell inner node next list, List.append_assoc ..⟩

/-- Walks find what is read within the bound. -/
theorem walk_eq_some_iff {head : Term} {found : List Term} :
    walk index [] [] head = some found ↔ listItems index head = .ok found := by
  rw [listItems_eq_ok_iff]
  constructor
  · intro h
    obtain ⟨n, more, list, rfl⟩ := exists_rdfList_of_walk h
    exact ⟨n, list⟩
  · rintro ⟨n, list⟩
    exact walk_of_rdfList list fun s hs => absurd hs List.not_mem_nil

/-! ## Distances from the head -/

theorem cell?_succ {head rest : Term} (next : index.object? head (Vocab.rdf "rest") = some rest) (n : Nat) :
    cell? index head (n + 1) = cell? index rest n := by
  induction n with
  | zero => exact next
  | succ n ih => exact congrArg (·.bind fun c => index.object? c (Vocab.rdf "rest")) ih

theorem itemsBefore_succ {head rest : Term} (next : index.object? head (Vocab.rdf "rest") = some rest) (n : Nat) :
    itemsBefore index head (n + 1) =
      (index.object? head (Vocab.rdf "first")).toList ++ itemsBefore index rest n := by
  have head_first : cell? index head 0 = some head := rfl
  rw [itemsBefore, List.range_succ_eq_map, List.filterMap_cons, List.filterMap_map, head_first, Option.bind_some]
  simp only [Function.comp_def, Nat.succ_eq_add_one, cell?_succ next]
  cases index.object? head (Vocab.rdf "first") <;> rfl

theorem endsAfter_succ {head rest : Term} (node : ∀ l, head ≠ .literal l)
    (next : index.object? head (Vocab.rdf "rest") = some rest) (n : Nat) :
    EndsAfter index head (n + 1) ↔ EndsAfter index rest n := by
  constructor
  · intro ends
    refine ⟨(cell?_succ next n).symm.trans ends.empty, fun k hk l => ?_⟩
    rw [← cell?_succ next]
    exact ends.nodes (k + 1) (by omega) l
  · intro ends
    refine ⟨(cell?_succ next n).trans ends.empty, fun k hk l => ?_⟩
    cases k with
    | zero => exact fun h => node l (Option.some.inj h)
    | succ k =>
      rw [cell?_succ next]
      exact ends.nodes k (by omega) l

/-- Nothing is at a distance from a head without a rest. -/
theorem cell?_eq_none {head : Term} (last : index.object? head (Vocab.rdf "rest") = none) (n : Nat) :
    cell? index head (n + 1) = none := by
  induction n with
  | zero => exact last
  | succ n ih => exact congrArg (·.bind fun c => index.object? c (Vocab.rdf "rest")) ih

/-- A list of `n` cells is one whose end comes after `n` of them, and not before. -/
theorem rdfList_iff {head : Term} {n : Nat} {items : List Term} : RdfList index n head items ↔
    EndsAfter index head n ∧ (∀ k < n, ¬ EndsAfter index head k) ∧ items = itemsBefore index head n := by
  have ends_zero : ∀ cell, EndsAfter index cell 0 ↔ cell = nil := fun cell =>
    ⟨fun ends => Option.some.inj ends.empty, fun h => ⟨congrArg some h, nofun⟩⟩
  induction n generalizing head items with
  | zero =>
    constructor
    · rintro ⟨⟩
      exact ⟨(ends_zero nil).mpr rfl, nofun, rfl⟩
    · rintro ⟨ends, -, rfl⟩
      obtain rfl := (ends_zero head).mp ends
      exact .nil
  | succ n ih =>
    constructor
    · rintro (_ | ⟨inner, node, next, list⟩)
      obtain ⟨ends, first, rfl⟩ := ih.mp list
      refine ⟨(endsAfter_succ node next n).mpr ends, fun k hk => ?_, (itemsBefore_succ next n).symm⟩
      cases k with
      | zero => exact fun early => inner ((ends_zero head).mp early)
      | succ k => exact fun early => first k (by omega) ((endsAfter_succ node next k).mp early)
    · rintro ⟨ends, first, rfl⟩
      have inner : head ≠ nil := fun h => first 0 (by omega) ((ends_zero head).mpr h)
      have node : ∀ l, head ≠ .literal l := fun l h => ends.nodes 0 (by omega) l (congrArg some h)
      cases next : index.object? head (Vocab.rdf "rest") with
      | none => exact absurd ((cell?_eq_none next n).symm.trans ends.empty) nofun
      | some rest =>
        rw [itemsBefore_succ next]
        refine .cell inner node next (ih.mpr ⟨(endsAfter_succ node next n).mp ends, fun k hk early => ?_, rfl⟩)
        exact first (k + 1) (by omega) ((endsAfter_succ node next k).mpr early)

/-- Of the distances at which a list ends one is the first. -/
theorem exists_rdfList_iff {head : Term} :
    (∃ n items, RdfList index n head items) ↔ ∃ n, EndsAfter index head n := by
  simp only [rdfList_iff]
  constructor
  · rintro ⟨n, _, ends, -⟩
    exact ⟨n, ends⟩
  · intro some_end
    classical
    exact ⟨Nat.find some_end, _, Nat.find_spec some_end, fun k hk => Nat.find_min some_end hk, rfl⟩

/-- Lists are read exactly when they end: with the items before the first end, and else with an error that names
the manifest and the head. Walking on for as long as there are cells that were not seen comes to the same. -/
theorem listItems_eq_iff_ends (index : TripleIndex) (head : Term) :
    (∀ items, listItems index head = .ok items ↔ ∃ n, EndsAfter index head n ∧
      (∀ k < n, ¬ EndsAfter index head k) ∧ items = itemsBefore index head n) ∧
    (∀ e, listItems index head = .error e ↔
      (¬ ∃ n, EndsAfter index head n) ∧ e = .unterminatedList (source index) head.text) ∧
    (listItems index head).toOption = walk index [] [] head := by
  have ends : (∃ n, EndsAfter index head n) ↔ ∃ items, listItems index head = .ok items := by
    rw [← exists_rdfList_iff, exists_comm]
    exact exists_congr fun items => listItems_eq_ok_iff.symm
  refine ⟨fun items => ?_, fun e => ?_, ?_⟩
  · rw [listItems_eq_ok_iff]
    simp only [rdfList_iff]
  · rw [ends, listItems]
    cases listWithin index index.subjects.length head with
    | none => simp [eq_comm]
    | some items => simp
  · refine Option.ext fun items => ?_
    rw [walk_eq_some_iff]
    cases listItems index head with
    | error e => simp [Except.toOption]
    | ok found => simp [Except.toOption]

end SparqlConformance.Manifest
