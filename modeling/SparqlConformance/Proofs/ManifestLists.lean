import Mathlib.Data.List.Forall2
import Mathlib.Data.List.Perm.Subperm
import SparqlConformance.Manifest.Inclusion
/-!
# What manifests declare

The lists of a manifest as the RDF vocabulary means them, and what a manifest declares by them: the files
that it includes and the entries that are its own. Walking along a list with a bound on the number of its
cells finds every list that ends, for the cells of such a list are different subjects.
-/
namespace SparqlConformance.Manifest

variable {index : TripleIndex}

/-- The items of a list of `n` cells. -/
inductive RdfList (index : TripleIndex) : Nat → Term → List Term → Prop
  | nil : RdfList index 0 nil []
  | cell {n : Nat} {cell rest : Term} {items : List Term} (inner : cell ≠ nil)
      (node : ∀ l, cell ≠ .literal l) (next : index.object? cell (Vocab.rdf "rest") = some rest)
      (more : RdfList index n rest items) :
      RdfList index (n + 1) cell ((index.object? cell (Vocab.rdf "first")).toList ++ items)

theorem RdfList.unique {n m : Nat} {cell : Term} {items others : List Term}
    (h : RdfList index n cell items) (h' : RdfList index m cell others) : n = m ∧ items = others := by
  induction h generalizing m others with
  | nil =>
    cases h' with
    | nil => exact ⟨rfl, rfl⟩
    | cell inner => exact absurd rfl inner
  | cell inner node next more ih =>
    cases h' with
    | nil => exact absurd rfl inner
    | cell inner' node' next' more' =>
      obtain rfl := Option.some.inj (next.symm.trans next')
      obtain ⟨rfl, rfl⟩ := ih more'
      exact ⟨rfl, rfl⟩

theorem mem_subjects_of_object? {subject object : Term} {predicate : String}
    (h : index.object? subject predicate = some object) : subject ∈ index.subjects := by
  have found : ∀ g : Grouping, Grouping.find g subject ≠ [] → subject ∈ g.map Prod.fst := by
    intro g
    induction g with
    | nil => exact fun h => absurd rfl h
    | cons group g ih =>
      intro h
      by_cases hs : group.1 = subject
      · exact List.mem_cons.mpr (Or.inl hs.symm)
      · rw [Grouping.find, if_neg hs] at h
        exact List.mem_cons_of_mem _ (ih h)
  apply found index.groups
  intro none
  simp [TripleIndex.object?, TripleIndex.objects, TripleIndex.properties, none] at h

/-- The cells of a list are different subjects: each has its own distance from the end. -/
theorem RdfList.exists_cells {n : Nat} {head : Term} {items : List Term}
    (h : RdfList index n head items) : ∃ cells : List Term, cells.length = n ∧ cells.Nodup ∧
      ∀ c ∈ cells, c ∈ index.subjects ∧ ∃ k items, k ≤ n ∧ RdfList index k c items := by
  induction h with
  | nil => exact ⟨[], rfl, List.nodup_nil, fun c hc => absurd hc List.not_mem_nil⟩
  | @cell n cell rest items inner node next more ih =>
    obtain ⟨cells, length, nodup, known⟩ := ih
    have whole := RdfList.cell inner node next more
    refine ⟨cell :: cells, by rw [List.length_cons, length], List.nodup_cons.mpr ⟨?_, nodup⟩, ?_⟩
    · intro repeated
      obtain ⟨_, k, others, hk, again⟩ := known cell repeated
      have := (whole.unique again).1
      omega
    · intro c hc
      rcases List.mem_cons.mp hc with rfl | hc
      · exact ⟨mem_subjects_of_object? next, n + 1, _, Nat.le_refl _, whole⟩
      · obtain ⟨subject, k, others, hk, list⟩ := known c hc
        exact ⟨subject, k, others, by omega, list⟩

theorem RdfList.length_le {n : Nat} {head : Term} {items : List Term}
    (h : RdfList index n head items) : n ≤ index.subjects.length := by
  obtain ⟨cells, length, nodup, known⟩ := h.exists_cells
  rw [← length]
  exact (nodup.subperm fun c hc => (known c hc).1).length_le

theorem listWithin_nil (steps : Nat) : listWithin index steps nil = some [] := by
  rw [listWithin.eq_def]
  exact if_pos rfl

theorem listWithin_zero {head : Term} (inner : head ≠ nil) : listWithin index 0 head = none := by
  rw [listWithin, if_neg inner]

theorem listWithin_literal (steps : Nat) (l : Literal) :
    listWithin index steps (.literal l) = none := by
  cases steps with
  | zero => exact listWithin_zero nofun
  | succ steps =>
    rw [listWithin.eq_def]
    exact if_neg nofun

theorem listWithin_succ {steps : Nat} {head : Term} (inner : head ≠ nil)
    (node : ∀ l, head ≠ .literal l) :
    listWithin index (steps + 1) head = (index.object? head (Vocab.rdf "rest")).bind fun rest =>
      (listWithin index steps rest).map
        ((index.object? head (Vocab.rdf "first")).toList ++ ·) := by
  rw [listWithin, if_neg inner]
  · cases index.object? head (Vocab.rdf "rest") <;> rfl
  · exact fun l h => node l h

theorem listWithin_of_rdfList {n steps : Nat} {head : Term} {items : List Term}
    (h : RdfList index n head items) (enough : n ≤ steps) :
    listWithin index steps head = some items := by
  induction h generalizing steps with
  | nil => exact listWithin_nil steps
  | cell inner node next more ih =>
    obtain ⟨steps, rfl⟩ : ∃ m, steps = m + 1 := ⟨steps - 1, by omega⟩
    rw [listWithin_succ inner node, next, Option.bind_some, ih (by omega), Option.map_some]

theorem exists_rdfList_of_listWithin {steps : Nat} {head : Term} {items : List Term}
    (h : listWithin index steps head = some items) : ∃ n, RdfList index n head items := by
  induction steps generalizing head items with
  | zero =>
    by_cases hnil : head = nil
    · rw [hnil, listWithin_nil] at h
      rw [hnil, ← Option.some.inj h]
      exact ⟨0, .nil⟩
    · rw [listWithin_zero hnil] at h
      cases h
  | succ steps ih =>
    by_cases hnil : head = nil
    · rw [hnil, listWithin_nil] at h
      rw [hnil, ← Option.some.inj h]
      exact ⟨0, .nil⟩
    · have node : ∀ l, head ≠ .literal l := by
        rintro l rfl
        rw [listWithin_literal] at h
        cases h
      rw [listWithin_succ hnil node] at h
      obtain ⟨rest, next, h⟩ := Option.bind_eq_some_iff.mp h
      obtain ⟨more, hmore, rfl⟩ := Option.map_eq_some_iff.mp h
      obtain ⟨n, list⟩ := ih hmore
      exact ⟨n + 1, .cell hnil node next list⟩

/-- Reading a list succeeds exactly when the list ends. -/
theorem listItems_eq_ok_iff {head : Term} {items : List Term} :
    listItems index head = .ok items ↔ ∃ n, RdfList index n head items := by
  have walked : listItems index head = .ok items ↔
      listWithin index index.subjects.length head = some items := by
    rw [listItems]
    cases listWithin index index.subjects.length head with
    | none => simp
    | some found => simp
  rw [walked]
  constructor
  · exact exists_rdfList_of_listWithin
  · rintro ⟨n, list⟩
    exact listWithin_of_rdfList list list.length_le

/-- The heads of the lists of includes, by subject and then by list. -/
def includeHeads (index : TripleIndex) : List Term :=
  (index.subjectsWith includeProperty).flatMap fun s => index.objects s includeProperty

/-- What a manifest declares: its node, the files of the items of its lists of includes, and the items
of the list of entries of the node. -/
structure Declares (index : TripleIndex) (files : List Path) (ids : List Term) : Prop where
  includes : ∃ lists, List.Forall₂ (fun head items => ∃ n, RdfList index n head items)
    (includeHeads index) lists ∧ files = lists.flatten.filterMap (resolve? (source index))
  entries : ∃ node, primaryNode index = .ok node ∧
    ((index.object? node entriesProperty = none ∧ ids = []) ∨
      ∃ head n, index.object? node entriesProperty = some head ∧ RdfList index n head ids)

theorem foldlM_append_eq_ok_iff {α β ε : Type} (f : α → Except ε (List β)) {as : List α}
    {start out : List β} :
    as.foldlM (fun found a => (f a).map (found ++ ·)) start = .ok out ↔
      ∃ lists, List.Forall₂ (fun a bs => f a = .ok bs) as lists ∧ out = start ++ lists.flatten := by
  induction as generalizing start with
  | nil =>
    constructor
    · intro h
      obtain rfl := Except.ok.inj h
      exact ⟨[], .nil, by simp⟩
    · rintro ⟨lists, all, rfl⟩
      cases all
      simp [List.foldlM_nil, pure, Except.pure]
  | cons a as ih =>
    rw [List.foldlM_cons]
    constructor
    · intro h
      cases hf : f a with
      | error e =>
        rw [hf] at h
        cases h
      | ok bs =>
        rw [hf] at h
        obtain ⟨lists, all, rfl⟩ := ih.mp h
        exact ⟨bs :: lists, .cons hf all, by simp⟩
    · rintro ⟨lists, all, rfl⟩
      obtain _ | ⟨hf, all⟩ := all
      rw [hf]
      exact ih.mpr ⟨_, all, by simp⟩

theorem includes_eq_ok_iff {items : List Term} :
    includes index = .ok items ↔
      ∃ lists, List.Forall₂ (fun head items => ∃ n, RdfList index n head items)
        (includeHeads index) lists ∧ items = lists.flatten := by
  unfold includes
  simp only [foldlM_append_eq_ok_iff, listItems_eq_ok_iff, List.nil_append, includeHeads]

theorem includedFiles_eq_ok_iff {files : List Path} :
    includedFiles index = .ok files ↔ (∃ node, primaryNode index = .ok node) ∧
      ∃ items, includes index = .ok items ∧ files = items.filterMap (resolve? (source index)) := by
  unfold includedFiles
  cases primaryNode index with
  | error e =>
    refine iff_of_false nofun ?_
    rintro ⟨⟨node, h⟩, _⟩
    cases h
  | ok node =>
    cases includes index with
    | error e =>
      refine iff_of_false nofun ?_
      rintro ⟨_, items, h, _⟩
      cases h
    | ok items =>
      constructor
      · intro h
        exact ⟨⟨node, rfl⟩, items, rfl, (Except.ok.inj h).symm⟩
      · rintro ⟨_, found, h, rfl⟩
        obtain rfl := Except.ok.inj h
        rfl

theorem entries_eq_ok_iff {ids : List Term} :
    entries index = .ok ids ↔ ∃ node, primaryNode index = .ok node ∧
      ((index.object? node entriesProperty = none ∧ ids = []) ∨
        ∃ head n, index.object? node entriesProperty = some head ∧ RdfList index n head ids) := by
  unfold entries
  cases primaryNode index with
  | error e =>
    refine iff_of_false nofun ?_
    rintro ⟨node, h, _⟩
    cases h
  | ok node =>
    have one : ∀ p : Term → Prop, (∃ n, (Except.ok node : Except SetupError Term) = .ok n ∧ p n) ↔
        p node := by
      intro p
      exact ⟨fun ⟨n, h, hp⟩ => Except.ok.inj h ▸ hp, fun hp => ⟨node, rfl, hp⟩⟩
    rw [one]
    dsimp only
    cases index.object? node entriesProperty with
    | none => simp [eq_comm]
    | some head => simp [listItems_eq_ok_iff]

/-- A manifest can be read exactly when it declares something, and then it gives just that. -/
theorem declares_iff {files : List Path} {ids : List Term} :
    Declares index files ids ↔
      includedFiles index = .ok files ∧ ownEntries index = .ok (ids.map fun id => ⟨id, index⟩) := by
  have own : ownEntries index = .ok (ids.map fun id => ⟨id, index⟩) ↔ entries index = .ok ids := by
    have inj : Function.Injective (List.map fun id => (⟨id, index⟩ : ManifestEntry)) :=
      List.map_injective_iff.mpr fun _ _ h => congrArg ManifestEntry.id h
    unfold ownEntries
    cases entries index with
    | error e => exact iff_of_false nofun nofun
    | ok found => simp [Except.map, inj.eq_iff]
  rw [own, includedFiles_eq_ok_iff, entries_eq_ok_iff]
  constructor
  · rintro ⟨⟨lists, all, rfl⟩, node, primary, own⟩
    exact ⟨⟨⟨node, primary⟩, _, includes_eq_ok_iff.mpr ⟨lists, all, rfl⟩, rfl⟩, node, primary, own⟩
  · rintro ⟨⟨_, items, hitems, rfl⟩, own⟩
    obtain ⟨lists, all, rfl⟩ := includes_eq_ok_iff.mp hitems
    exact ⟨⟨lists, all, rfl⟩, own⟩

theorem exists_declares {files : List Path} {own : List ManifestEntry}
    (files_ok : includedFiles index = .ok files) (own_ok : ownEntries index = .ok own) :
    ∃ ids : List Term, own = ids.map (fun id => ⟨id, index⟩) ∧ Declares index files ids := by
  obtain ⟨ids, rfl⟩ : ∃ ids : List Term, own = ids.map fun id => (⟨id, index⟩ : ManifestEntry) := by
    unfold ownEntries at own_ok
    cases hentries : entries index with
    | error e =>
      rw [hentries] at own_ok
      cases own_ok
    | ok ids =>
      rw [hentries] at own_ok
      exact ⟨ids, (Except.ok.inj own_ok).symm⟩
  exact ⟨ids, rfl, declares_iff.mpr ⟨files_ok, own_ok⟩⟩

/-- What one list after the other holds is what the lists of the heads hold. -/
theorem mem_flatten_iff {α β : Type} {r : α → List β → Prop}
    (unique : ∀ a bs bs', r a bs → r a bs' → bs = bs') {as : List α} {lists : List (List β)}
    (all : List.Forall₂ r as lists) {b : β} :
    b ∈ lists.flatten ↔ ∃ a ∈ as, ∃ bs, r a bs ∧ b ∈ bs := by
  induction all with
  | nil => simp
  | @cons a bs as lists h all ih =>
    rw [List.flatten_cons, List.mem_append, ih]
    constructor
    · rintro (hb | ⟨a', ha', bs', h', hb⟩)
      · exact ⟨a, List.mem_cons_self .., bs, h, hb⟩
      · exact ⟨a', List.mem_cons_of_mem _ ha', bs', h', hb⟩
    · rintro ⟨a', ha', bs', h', hb⟩
      rcases List.mem_cons.mp ha' with rfl | ha'
      · rw [unique _ _ _ h h']
        exact Or.inl hb
      · exact Or.inr ⟨a', ha', bs', h', hb⟩

theorem Declares.mem_files_iff {files : List Path} {ids : List Term} {other : Path}
    (h : Declares index files ids) :
    other ∈ files ↔ ∃ head ∈ includeHeads index, ∃ n items, RdfList index n head items ∧
      ∃ item ∈ items, resolve? (source index) item = some other := by
  obtain ⟨lists, all, rfl⟩ := h.includes
  have unique : ∀ head items others, (∃ n, RdfList index n head items) →
      (∃ n, RdfList index n head others) → items = others := by
    rintro head items others ⟨n, list⟩ ⟨m, list'⟩
    exact (list.unique list').2
  simp only [List.mem_filterMap, mem_flatten_iff unique all]
  constructor
  · rintro ⟨item, ⟨head, hhead, items, ⟨n, list⟩, hitem⟩, resolved⟩
    exact ⟨head, hhead, n, items, list, item, hitem, resolved⟩
  · rintro ⟨head, hhead, n, items, list, item, hitem, resolved⟩
    exact ⟨item, ⟨head, hhead, items, ⟨n, list⟩, hitem⟩, resolved⟩

end SparqlConformance.Manifest
