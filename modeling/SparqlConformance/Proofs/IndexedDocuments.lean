import SparqlConformance.Proofs.JoinedLines
import SparqlConformance.Proofs.TripleReading
import SparqlConformance.Rdf.TripleIndex
/-!
# Indexed documents

The index of a document that was written for some triples answers as if the triples themselves were
searched, from the first one to the last. Only the triples of a subject count for what it is asked about the
subject, and new labels of blank nodes change nothing as long as they keep subjects apart.
-/
namespace SparqlConformance

open Text

/-- Documents come apart into the lines of their triples. -/
theorem lines_document {ts : List Triple} (feed : ∀ t ∈ ts, '\n' ∉ t.render)
    (resource : ∀ t ∈ ts, ∀ l, t.subject ≠ .literal l) :
    lines (Triple.document ts).toList = ts.map Triple.render := by
  rw [Triple.document, String.toList_ofList]
  induction ts with
  | nil => rfl
  | cons t ts ih =>
    have last : t.render.getLast? ≠ some '\r' := by
      obtain ⟨c, m, htext, _⟩ := Triple.render_ends (resource t List.mem_cons_self)
      rw [htext, ← List.cons_append, List.getLast?_concat]
      decide
    rw [List.flatMap_cons, List.append_assoc, List.singleton_append,
      lines_append_feed (feed t List.mem_cons_self) last,
      ih (fun u hu => feed u (List.mem_cons_of_mem _ hu)) fun u hu => resource u (List.mem_cons_of_mem _ hu),
      List.map_cons]

namespace TripleIndex

/-- On the line of a triple there is nothing to trim. -/
theorem tripleOfLine_eq {t : Triple} (resource : ∀ l, t.subject ≠ .literal l) :
    tripleOfLine t.render = NTriples.readTriple .lenient t.render := by
  obtain ⟨c, m, htext, hc⟩ := Triple.render_ends resource
  have hspace : isSpace c = false := by rcases hc with rfl | rfl <;> decide
  have htrim : trim t.render = t.render := by
    rw [htext]
    exact trim_eq_self hspace (by decide) m
  have hspeaks : NTriples.isSilent t.render = false := by
    rw [htext]
    rcases hc with rfl | rfl <;> rfl
  rw [tripleOfLine, htrim, hspeaks]
  rfl

/-- A document is read line by line. -/
theorem triplesOfText_eq {ts : List Triple} (feed : ∀ t ∈ ts, '\n' ∉ t.render)
    (resource : ∀ t ∈ ts, ∀ l, t.subject ≠ .literal l) :
    triplesOfText (Triple.document ts) = ts.filterMap fun t => NTriples.readTriple .lenient t.render := by
  rw [triplesOfText, lines_document feed resource, List.filterMap_map]
  exact List.filterMap_congr fun t ht => tripleOfLine_eq (resource t ht)

/-- A document is read as the triples that it was written for. -/
theorem triplesOfText_document {ts : List Triple} (written : ∀ t ∈ ts, t.IsWritten) :
    triplesOfText (Triple.document ts) = ts := by
  rw [triplesOfText_eq (fun t ht => Triple.render_no_feed (written t ht)) fun t ht => (written t ht).resource]
  refine (List.filterMap_congr fun t ht => ?_).trans List.filterMap_some
  exact NTriples.readTriple_render .lenient (written t ht).isWhole

end TripleIndex

namespace Grouping

theorem find_insert (g : Grouping) (s s' : Term) (p : Property) :
    (g.insert s p).find s' = g.find s' ++ if s = s' then [p] else [] := by
  induction g with
  | nil =>
    rw [insert, find, find, List.nil_append]
    rfl
  | cons group g ih =>
    obtain ⟨first, ps⟩ := group
    rw [insert]
    by_cases here : first = s
    · rw [if_pos here, find, find]
      by_cases same : first = s'
      · rw [if_pos same, if_pos same, if_pos (here.symm.trans same)]
      · rw [if_neg same, if_neg same, if_neg fun h => same (here.trans h), List.append_nil]
    · rw [if_neg here, find, find, ih]
      by_cases same : first = s'
      · rw [if_pos same, if_pos same, if_neg fun h => here (same.trans h.symm), List.append_nil]
      · rw [if_neg same, if_neg same]

/-- The first subject stays the first one. -/
theorem head?_insert {g : Grouping} {first : Term} (h : (g.map Prod.fst).head? = some first) (s : Term)
    (p : Property) : ((g.insert s p).map Prod.fst).head? = some first := by
  cases g with
  | nil => cases h
  | cons group g =>
    rw [insert]
    by_cases here : group.1 = s
    · rw [if_pos here]
      exact h
    · rw [if_neg here]
      exact h

end Grouping

namespace TripleIndex

/-- The objects of a subject and a predicate, searched from the first triple to the last. -/
def objectsIn (ts : List Triple) (s : Term) (p : String) : List Term :=
  (ts.filter fun t => t.subject = s ∧ t.predicate = p).map Triple.object

theorem objects_insert (index : TripleIndex) (t : Triple) (s : Term) (p : String) :
    (index.insert t).objects s p = index.objects s p ++ objectsIn [t] s p := by
  unfold objects properties insert objectsIn
  rw [Grouping.find_insert, List.filter_append, List.map_append]
  by_cases subject : t.subject = s
  · by_cases predicate : t.predicate = p
    · simp [subject, predicate]
    · simp [subject, predicate]
  · simp [subject]

theorem objectsIn_append (ts us : List Triple) (s : Term) (p : String) :
    objectsIn (ts ++ us) s p = objectsIn ts s p ++ objectsIn us s p := by
  rw [objectsIn, List.filter_append, List.map_append]
  rfl

theorem objects_insertAll (index : TripleIndex) (ts : List Triple) (s : Term) (p : String) :
    (index.insertAll ts).objects s p = index.objects s p ++ objectsIn ts s p := by
  induction ts generalizing index with
  | nil => exact (List.append_nil _).symm
  | cons t ts ih =>
    have rest := ih (index.insert t)
    rw [objects_insert, List.append_assoc, ← objectsIn_append] at rest
    exact rest

/-- Triples of other subjects do not count. -/
theorem objectsIn_eq_nil {ts : List Triple} {s : Term} (h : ∀ t ∈ ts, t.subject ≠ s) (p : String) :
    objectsIn ts s p = [] := by
  unfold objectsIn
  rw [List.filter_eq_nil_iff.mpr, List.map_nil]
  intro t ht kept
  exact h t ht (of_decide_eq_true kept).1

/-- The index of a document answers from its triples. -/
theorem objects_document (source : String) {ts : List Triple} (written : ∀ t ∈ ts, t.IsWritten) (s : Term)
    (p : String) : (ofNTriples source (Triple.document ts)).objects s p = objectsIn ts s p := by
  rw [ofNTriples, triplesOfText_document written, objects_insertAll]
  rfl

/-- The subject of the first triple of a document is the first subject of its index. -/
theorem head?_subjects_document (source : String) {t : Triple} {ts : List Triple}
    (written : ∀ u ∈ t :: ts, u.IsWritten) :
    (ofNTriples source (Triple.document (t :: ts))).subjects.head? = some t.subject := by
  have kept : ∀ (us : List Triple) (index : TripleIndex), index.subjects.head? = some t.subject →
      (index.insertAll us).subjects.head? = some t.subject := by
    intro us
    induction us with
    | nil => exact fun _ h => h
    | cons u us ih => exact fun index h => ih (index.insert u) (Grouping.head?_insert h _ _)
  rw [ofNTriples, triplesOfText_document written]
  exact kept ts _ rfl

/-- New labels change what a subject is asked about only where they join it with another subject. -/
theorem objectsIn_relabel {ts : List Triple} {s : Term} {f : String → String}
    (apart : ∀ t ∈ ts, t.subject.relabel f = s.relabel f → t.subject = s) (p : String) :
    objectsIn (ts.map (Triple.relabel f)) (s.relabel f) p = (objectsIn ts s p).map (Term.relabel f) := by
  unfold objectsIn
  rw [List.filter_map, List.map_map, List.map_map]
  have same : ts.filter ((fun t : Triple => decide (t.subject = s.relabel f ∧ t.predicate = p)) ∘
      Triple.relabel f) = ts.filter fun t => t.subject = s ∧ t.predicate = p := by
    refine List.filter_congr fun t ht => ?_
    refine decide_eq_decide.mpr (and_congr_left' ?_)
    exact ⟨apart t ht, fun h => congrArg (Term.relabel f) h⟩
  rw [same]
  rfl

/-- New labels for the blank nodes of some triples: plain ones, and different ones for different nodes. -/
structure FreshLabels (f : String → String) (ts : List Triple) : Prop where
  apart : ∀ t ∈ ts, ∀ u ∈ ts, ∀ l ∈ t.labels, ∀ m ∈ u.labels, f l = f m → l = m
  plain : ∀ t ∈ ts, ∀ l ∈ t.labels, IsPlainLabel (f l)

/-- Plain labels may stay. -/
theorem freshLabels_id {ts : List Triple} (plain : ∀ t ∈ ts, ∀ l ∈ t.labels, IsPlainLabel l) : FreshLabels id ts :=
  ⟨fun _ _ _ _ _ _ _ _ same => same, plain⟩

/-- The index answers from triples whose blank nodes have new labels. -/
def AnswersFrom (index : TripleIndex) (f : String → String) (ts : List Triple) : Prop :=
  ∀ t ∈ ts, ∀ p, index.objects (t.subject.relabel f) p = (objectsIn ts t.subject p).map (Term.relabel f)

theorem isWritten_relabel {ts : List Triple} {f : String → String} (readable : ∀ t ∈ ts, t.IsReadable)
    (fresh : FreshLabels f ts) : ∀ t ∈ ts.map (Triple.relabel f), t.IsWritten := by
  intro t ht
  obtain ⟨u, hu, rfl⟩ := List.mem_map.mp ht
  exact (readable u hu).isWritten_relabel (fresh.plain u hu)

theorem answersFrom_document (source : String) {ts : List Triple} {f : String → String}
    (readable : ∀ t ∈ ts, t.IsReadable) (fresh : FreshLabels f ts) :
    (ofNTriples source (Triple.document (ts.map (Triple.relabel f)))).AnswersFrom f ts := by
  intro t ht p
  rw [objects_document source (isWritten_relabel readable fresh)]
  refine objectsIn_relabel (fun u hu same => Term.eq_of_relabel_eq (fun l m hl hm => ?_) same) p
  exact fresh.apart u hu t ht l (Triple.mem_labels.mpr (.inl hl)) m (Triple.mem_labels.mpr (.inl hm))

end TripleIndex

end SparqlConformance
