import SparqlConformance.Proofs.IndexedDocuments
import SparqlConformance.Proofs.KeyedLists
/-!
# Indexed triples

An index holds the triples that were put into it, and no others: it counts them, it has their subjects in
the order of first sight, and it has what was said of a subject in the order in which it was said. Two
lists of triples with their subjects in the same order are in one index only if they are the same list.
-/
namespace SparqlConformance

/-- A triple without its subject. -/
def Triple.property (t : Triple) : Property := (t.predicate, t.object)

theorem Triple.eq_of_property_eq {t u : Triple} (subject : t.subject = u.subject)
    (property : t.property = u.property) : t = u := by
  obtain ⟨predicate, object⟩ := Prod.mk.inj property
  cases t
  cases u
  simp_all

namespace Grouping

variable (g : Grouping) (s : Term) (p : Property)

/-- How many pairs there are. -/
def count (g : Grouping) : Nat := (g.map fun group => group.2.length).sum

theorem count_insert : (g.insert s p).count = g.count + 1 := by
  unfold count
  induction g with
  | nil => rfl
  | cons group g ih =>
    obtain ⟨first, ps⟩ := group
    rw [insert]
    by_cases here : first = s
    · simp only [if_pos here, List.map_cons, List.sum_cons, List.length_append, List.length_singleton]
      omega
    · simp only [if_neg here, List.map_cons, List.sum_cons, ih, Nat.add_assoc]

/-- A subject is added behind the others when it is seen for the first time. -/
theorem subjects_insert :
    (g.insert s p).map Prod.fst =
      if s ∈ g.map Prod.fst then g.map Prod.fst else g.map Prod.fst ++ [s] := by
  induction g with
  | nil => rfl
  | cons group g ih =>
    obtain ⟨first, ps⟩ := group
    rw [insert]
    by_cases here : first = s
    · rw [if_pos here, here, if_pos (by simp)]
      rfl
    · rw [if_neg here, List.map_cons, ih, List.map_cons]
      by_cases known : s ∈ g.map Prod.fst
      · rw [if_pos known, if_pos (List.mem_cons_of_mem _ known)]
      · rw [if_neg known, if_neg (List.not_mem_cons_of_ne_of_not_mem (Ne.symm here) known), List.cons_append]

end Grouping

theorem eraseDups_concat {α : Type} [DecidableEq α] (as : List α) (a : α) :
    (as ++ [a]).eraseDups = if a ∈ as then as.eraseDups else as.eraseDups ++ [a] := by
  rw [List.eraseDups_append, List.removeAll]
  by_cases known : a ∈ as
  · rw [if_pos known, List.filter_cons_of_neg (by simpa using known)]
    exact List.append_nil _
  · rw [if_neg known, List.filter_cons_of_pos (by simpa using known)]
    rfl

theorem eraseDups_append_of_disjoint {α : Type} [DecidableEq α] {as bs : List α}
    (disjoint : ∀ b ∈ bs, b ∉ as) : (as ++ bs).eraseDups = as.eraseDups ++ bs.eraseDups := by
  rw [List.eraseDups_append, List.removeAll, List.filter_eq_self.mpr]
  intro b hb
  simpa using disjoint b hb

/-- Repetitions stay repetitions under another name. -/
theorem eraseDups_map {α β : Type} [DecidableEq α] [DecidableEq β] {f : α → β} {as : List α}
    (inj : ∀ a ∈ as, ∀ b ∈ as, f a = f b → a = b) : (as.map f).eraseDups = as.eraseDups.map f := by
  induction as using List.reverseRecOn with
  | nil => rfl
  | append_singleton as a ih =>
    have known : f a ∈ as.map f ↔ a ∈ as := by
      constructor
      · intro h
        obtain ⟨b, hb, same⟩ := List.mem_map.mp h
        rwa [inj a (by simp) b (List.mem_append_left _ hb) same.symm]
      · exact List.mem_map_of_mem
    rw [List.map_append, List.map_singleton, eraseDups_concat, eraseDups_concat,
      ih fun a ha b hb => inj a (List.mem_append_left _ ha) b (List.mem_append_left _ hb)]
    by_cases h : a ∈ as
    · rw [if_pos h, if_pos (known.mpr h)]
    · rw [if_neg h, if_neg fun hf => h (known.mp hf), List.map_append, List.map_singleton]

namespace TripleIndex

variable {index : TripleIndex} {ts us : List Triple}

theorem contains_iff {s o : Term} {p : String} :
    index.contains s p o = true ↔ o ∈ index.objects s p := by
  simp [contains, objects]

theorem size_eq_count (index : TripleIndex) : index.size = index.groups.count := by
  have sums : ∀ (g : Grouping) n, g.foldl (fun n group => n + group.2.length) n = n + g.count := by
    intro g
    induction g with
    | nil => exact fun n => rfl
    | cons group g ih =>
      intro n
      rw [List.foldl_cons, ih, Grouping.count, Grouping.count, List.map_cons, List.sum_cons, Nat.add_assoc]
  rw [size, sums, Nat.zero_add]

/-- The index tells exactly these triples, and in their order. -/
structure Holds (index : TripleIndex) (ts : List Triple) : Prop where
  size : index.size = ts.length
  subjects : index.subjects = (ts.map Triple.subject).eraseDups
  properties : ∀ s, index.properties s = (ts.filter fun t => t.subject = s).map Triple.property

theorem holds_empty (source : String) : (empty source).Holds [] := ⟨rfl, rfl, fun _ => rfl⟩

/-- One more triple is one more at the end. -/
theorem Holds.insert (h : index.Holds ts) (t : Triple) : (index.insert t).Holds (ts ++ [t]) := by
  refine ⟨?_, ?_, fun s => ?_⟩
  · rw [size_eq_count, List.length_append, List.length_singleton, ← h.size, size_eq_count]
    exact Grouping.count_insert _ _ _
  · have subjects : index.groups.map Prod.fst = (ts.map Triple.subject).eraseDups := h.subjects
    have inserted : (index.insert t).subjects = _ :=
      Grouping.subjects_insert index.groups t.subject t.property
    rw [inserted, subjects, List.map_append, List.map_singleton, eraseDups_concat]
    exact if_congr List.mem_eraseDups rfl rfl
  · have properties : Grouping.find index.groups s = _ := h.properties s
    have inserted : (index.insert t).properties s = _ :=
      Grouping.find_insert index.groups t.subject s t.property
    rw [inserted, properties, List.filter_append, List.map_append]
    by_cases same : t.subject = s
    · simp [same]
    · simp [same]

theorem Holds.insertAll (h : index.Holds ts) (us : List Triple) :
    (index.insertAll us).Holds (ts ++ us) := by
  induction us generalizing index ts with
  | nil => rwa [List.append_nil]
  | cons u us ih =>
    have rest := ih (h.insert u)
    rwa [List.append_assoc, List.singleton_append] at rest

/-- The index of a text holds the triples that are read from its lines. -/
theorem holds_ofNTriples (source ntriples : String) :
    (ofNTriples source ntriples).Holds (triplesOfText ntriples) := by
  have holds := (holds_empty source).insertAll (triplesOfText ntriples)
  rwa [List.nil_append] at holds

/-- Triples whose subjects stand in one order are told by the index. -/
theorem Holds.eq (h : index.Holds ts) (h' : index.Holds us)
    (subjects : ts.map Triple.subject = us.map Triple.subject) : ts = us := by
  have classes : ∀ s, (keyClass Triple.subject s ts).map Triple.property =
      (keyClass Triple.subject s us).map Triple.property := fun s =>
    (h.properties s).symm.trans (h'.properties s)
  have properties := map_eq_of_map_key_eq subjects classes
  have both := congrArg₂ List.zip subjects properties
  rw [List.zip_map', List.zip_map'] at both
  have same := map_eq_of_map_eq (p := id) (q := id) both fun t _ u _ heq =>
    Triple.eq_of_property_eq (Prod.mk.inj heq).1 (Prod.mk.inj heq).2
  rwa [List.map_id, List.map_id] at same

end TripleIndex

end SparqlConformance
