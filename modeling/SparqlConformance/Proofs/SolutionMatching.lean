import SparqlConformance.Answers.Comparison
import SparqlConformance.Proofs.SortedRows
/-!
# Matching of solution sequences

When the strict comparison of two solution sequences finds no difference. The verdict is taken on
sorted and numbered text; here it is told without text, columns or sort keys: some renaming of labels
takes the solutions of each shape, in their order, to those of the other side.
-/
namespace SparqlConformance

namespace Solution

/-- What is left of a solution when only the pattern of its labels counts. -/
def shape (row : Solution) : Solution := row.relabel (placeLabel '*' (firstSeen row.labels))

theorem shape_eq_iff {row other : Solution} :
    row.shape = other.shape ↔
      ∃ f : String → String, Set.InjOn f {l | l ∈ row.labels} ∧ other = row.relabel f := by
  have h := numbered_rows_eq_iff '*' labels [row] [other] (fun _ _ _ => Iff.rfl)
    labels_relabel
  simpa [labelsBy, shape] using h

end Solution

/-- Sort keys forget the names of labels and nothing else. -/
theorem sortKey_eq_iff {columns : List String} {row other : Solution} (hrow : row.IsDelimited)
    (hother : other.IsDelimited) (covered : ∀ v ∈ row.names, v ∈ columns)
    (covered_other : ∀ v ∈ other.names, v ∈ columns) :
    sortKey columns row = sortKey columns other ↔ row.shape = other.shape := by
  have h : renderRows '*' columns [] [row] = renderRows '*' columns [] [other] ↔ _ :=
    renderRows_eq_iff (by decide) (by simp [hrow, hother])
      (by simpa using ⟨covered, covered_other⟩)
  rw [renderRows_singleton, renderRows_singleton] at h
  rw [Solution.shape_eq_iff]
  simpa [labelsBy, mem_labelsIn covered] using h

/-- Rows as they are written: sorted by key unless their order counts. -/
def arrange (columns : List String) (ordered : Bool) (rows : List Solution) : List Solution :=
  if ordered then rows else sortRows columns rows

theorem arrange_perm (columns : List String) (ordered : Bool) (rows : List Solution) :
    (arrange columns ordered rows).Perm rows := by
  cases ordered with
  | true => exact List.Perm.refl _
  | false => exact sortRows_perm columns rows

theorem mem_arrange {columns : List String} {ordered : Bool} {rows : List Solution} {r : Solution} :
    r ∈ arrange columns ordered rows ↔ r ∈ rows :=
  (arrange_perm columns ordered rows).mem_iff

theorem mem_labelsBy_labels {rows : List Solution} {l : String} :
    l ∈ labelsBy Solution.labels rows ↔ ∃ r ∈ rows, l ∈ r.labels :=
  List.mem_flatMap

theorem mem_labelsBy_arrange {columns : List String} {ordered : Bool} {rows : List Solution}
    (covered : ∀ r ∈ rows, ∀ v ∈ r.names, v ∈ columns) (l : String) :
    l ∈ labelsBy (labelsIn columns) (arrange columns ordered rows) ↔
      l ∈ labelsBy Solution.labels rows := by
  simp only [labelsBy, List.mem_flatMap, mem_arrange]
  refine exists_congr fun r => and_congr_right fun hr => ?_
  exact mem_labelsIn (covered r hr) l

theorem sortKey_relabel_of_mem {columns : List String} {rows : List Solution}
    (covered : ∀ r ∈ rows, ∀ v ∈ r.names, v ∈ columns) {f : String → String}
    (inj : Set.InjOn f {l | l ∈ labelsBy Solution.labels rows}) :
    ∀ r ∈ rows, sortKey columns (r.relabel f) = sortKey columns r := by
  intro r hr
  have injRow : Set.InjOn f {l | l ∈ r.labels} :=
    inj.mono fun l hl => mem_labelsBy_labels.mpr ⟨r, hr, hl⟩
  exact sortKey_relabel (covered r hr) injRow

/-- Rows that keep their order among themselves: all rows when the order counts, and otherwise the rows
of one shape. -/
def block (ordered : Bool) (s : Solution) (rows : List Solution) : List Solution :=
  if ordered then rows else keyClass Solution.shape s rows

theorem mem_of_mem_block {ordered : Bool} {s : Solution} {rows : List Solution} {r : Solution}
    (h : r ∈ block ordered s rows) : r ∈ rows := by
  cases ordered with
  | true => exact h
  | false => exact (mem_keyClass.mp h).1

theorem mem_block_shape {ordered : Bool} {rows : List Solution} {r : Solution} (h : r ∈ rows) :
    r ∈ block ordered r.shape rows := by
  cases ordered with
  | true => exact h
  | false => exact mem_keyClass.mpr ⟨h, rfl⟩

/-- A renaming takes the blocks of the rows to those of the others, in their order. -/
def Matches (ordered : Bool) (f : String → String) (rows others : List Solution) : Prop :=
  ∀ s, block ordered s others = (block ordered s rows).map (Solution.relabel f)

/-- Some renaming that keeps labels apart takes the rows to the others. -/
def Renames (ordered : Bool) (rows others : List Solution) : Prop :=
  ∃ f : String → String, Set.InjOn f {l | l ∈ labelsBy Solution.labels rows} ∧
    Matches ordered f rows others

namespace Matches

variable {ordered : Bool} {f g : String → String} {rows others third : List Solution}

theorem exists_source (h : Matches ordered f rows others) {o : Solution} (ho : o ∈ others) :
    ∃ r ∈ rows, o = r.relabel f := by
  have hblock : o ∈ block ordered o.shape others := mem_block_shape ho
  rw [h o.shape] at hblock
  obtain ⟨r, hr, rfl⟩ := List.mem_map.mp hblock
  exact ⟨r, mem_of_mem_block hr, rfl⟩

theorem relabel_mem (h : Matches ordered f rows others) {r : Solution} (hr : r ∈ rows) :
    r.relabel f ∈ others := by
  have hblock : r ∈ block ordered r.shape rows := mem_block_shape hr
  have hmem := List.mem_map_of_mem (f := Solution.relabel f) hblock
  rw [← h r.shape] at hmem
  exact mem_of_mem_block hmem

theorem label_mem (h : Matches ordered f rows others) {l : String}
    (hl : l ∈ labelsBy Solution.labels rows) : f l ∈ labelsBy Solution.labels others := by
  obtain ⟨r, hr, hlr⟩ := mem_labelsBy_labels.mp hl
  refine mem_labelsBy_labels.mpr ⟨r.relabel f, h.relabel_mem hr, ?_⟩
  rw [Solution.labels_relabel]
  exact List.mem_map_of_mem hlr

theorem exists_source_label (h : Matches ordered f rows others) {l : String}
    (hl : l ∈ labelsBy Solution.labels others) : ∃ k ∈ labelsBy Solution.labels rows, l = f k := by
  obtain ⟨o, ho, hlo⟩ := mem_labelsBy_labels.mp hl
  obtain ⟨r, hr, rfl⟩ := h.exists_source ho
  rw [Solution.labels_relabel] at hlo
  obtain ⟨k, hk, rfl⟩ := List.mem_map.mp hlo
  exact ⟨k, mem_labelsBy_labels.mpr ⟨r, hr, hk⟩, rfl⟩

theorem refl (ordered : Bool) (rows : List Solution) : Matches ordered id rows rows := by
  intro s
  refine (List.map_id'' (fun r => ?_) _).symm
  exact Solution.relabel_eq_self fun _ _ => rfl

theorem symm (h : Matches ordered f rows others)
    (back : ∀ l ∈ labelsBy Solution.labels rows, g (f l) = l) : Matches ordered g others rows := by
  intro s
  have undone : ∀ r ∈ block ordered s rows, (r.relabel f).relabel g = r := by
    intro r hr
    rw [Solution.relabel_relabel]
    apply Solution.relabel_eq_self
    intro l hl
    exact back l (mem_labelsBy_labels.mpr ⟨r, mem_of_mem_block hr, hl⟩)
  have hmap : (block ordered s rows).map (Solution.relabel g ∘ Solution.relabel f) =
      (block ordered s rows).map id := List.map_congr_left undone
  rw [h s, List.map_map, hmap, List.map_id]

theorem trans (h : Matches ordered f rows others) (h' : Matches ordered g others third) :
    Matches ordered (g ∘ f) rows third := by
  intro s
  rw [h' s, h s, List.map_map]
  exact List.map_congr_left fun r _ => Solution.relabel_relabel f g r

end Matches

namespace Renames

variable {ordered : Bool} {rows others third : List Solution}

theorem refl (ordered : Bool) (rows : List Solution) : Renames ordered rows rows :=
  ⟨id, Function.injective_id.injOn, Matches.refl ordered rows⟩

theorem symm (h : Renames ordered rows others) : Renames ordered others rows := by
  obtain ⟨f, inj, matched⟩ := h
  have back : ∀ l ∈ labelsBy Solution.labels rows,
      Function.invFunOn f {l | l ∈ labelsBy Solution.labels rows} (f l) = l := fun l hl =>
    inj.leftInvOn_invFunOn hl
  refine ⟨_, ?_, matched.symm back⟩
  intro a ha b hb heq
  obtain ⟨k, hk, rfl⟩ := matched.exists_source_label ha
  obtain ⟨j, hj, rfl⟩ := matched.exists_source_label hb
  rw [back k hk, back j hj] at heq
  rw [heq]

theorem trans (h : Renames ordered rows others) (h' : Renames ordered others third) :
    Renames ordered rows third := by
  obtain ⟨f, inj, matched⟩ := h
  obtain ⟨g, inj', matched'⟩ := h'
  refine ⟨g ∘ f, ?_, matched.trans matched'⟩
  intro a ha b hb heq
  exact inj ha hb (inj' (matched.label_mem ha) (matched.label_mem hb) heq)

end Renames

namespace Solutions

/-- The blank node labels of the solutions. -/
def labels (b : Solutions) : List String := labelsBy Solution.labels b.rows

def IsDelimited (b : Solutions) : Prop := ∀ r ∈ b.rows, r.IsDelimited

instance (b : Solutions) : Decidable b.IsDelimited :=
  inferInstanceAs (Decidable (∀ r ∈ b.rows, r.IsDelimited))

end Solutions

/-- Sorting by key and taking the rows by shape match the same rows. -/
theorem sortRows_eq_map_iff {columns : List String} {rows others : List Solution}
    {f : String → String}
    (key_iff : ∀ r, r ∈ rows ∨ r ∈ others → ∀ o, o ∈ rows ∨ o ∈ others →
      (sortKey columns r = sortKey columns o ↔ r.shape = o.shape))
    (key_relabel : ∀ r ∈ rows, sortKey columns (r.relabel f) = sortKey columns r) :
    sortRows columns others = (sortRows columns rows).map (Solution.relabel f) ↔
      ∀ s, keyClass Solution.shape s others =
        (keyClass Solution.shape s rows).map (Solution.relabel f) := by
  have pairs_relabel : ((sortRows columns rows).map (Solution.relabel f)).map
      (fun r => (sortKey columns r, id r)) =
      (sortRows columns rows).map fun r => (sortKey columns r, r.relabel f) := by
    rw [List.map_map]
    apply List.map_congr_left
    intro r hr
    rw [Function.comp_apply, key_relabel r ((sortRows_perm columns rows).mem_iff.mp hr), id]
  constructor
  · intro h s
    have hpairs : (sortRows columns rows).map (fun r => (sortKey columns r, r.relabel f)) =
        (sortRows columns others).map fun r => (sortKey columns r, id r) := by
      rw [h, pairs_relabel]
    have hshape := keyClasses_of_same_ties key_iff (map_sortRows_eq_iff.mp hpairs) s
    rw [List.map_id] at hshape
    exact hshape.symm
  · intro h
    have hkeys := keyClasses_of_same_ties (p := Solution.relabel f) (q := id)
      (fun r hr o ho => (key_iff r hr o ho).symm) (fun s => by rw [h s, List.map_id])
    have hpairs := congrArg (List.map Prod.snd) (map_sortRows_eq_iff.mpr hkeys)
    simp only [List.map_map, Function.comp_def, id, List.map_id'] at hpairs
    exact hpairs.symm

section Pairs

variable {actual expected : Solutions}

theorem covered_columnOrder {r : Solution} (hr : r ∈ actual.rows ∨ r ∈ expected.rows) :
    ∀ v ∈ r.names, v ∈ columnOrder expected actual := by
  intro v hv
  rw [columnOrder, mem_declareAll]
  rcases hr with hr | hr
  · exact Or.inr (actual.declared r hr v hv)
  · exact Or.inl (expected.declared r hr v hv)

/-- Sequences of full fidelity are compared by their lines under common columns. -/
theorem compare_strict_of_full (full : actual.fidelity = .full) :
    (Answer.solutions actual).compare (.solutions expected) .strict =
      Comparison.ofLines
        (expected.render (columnOrder expected actual) (expected.ordered || actual.ordered))
        (actual.render (columnOrder expected actual) (expected.ordered || actual.ordered)) := by
  have notCsv : ¬ (actual.fidelity = .csv ∧ expected.fidelity ≠ .csv) := by
    rw [full]
    exact fun h => by cases h.1
  have notLax : ¬ (Cardinality.strict = .lax ∧ actual.size ≤ expected.size) := fun h => by
    cases h.1
  show Comparison.ofSolutions actual expected .strict = _
  unfold Comparison.ofSolutions
  rw [if_neg notLax]
  unfold canonicalPair
  simp only [if_neg notCsv]

/-- Two sequences of full fidelity are the same when their arranged rows have the same lines. -/
theorem strict_same_iff_lines (full : actual.fidelity = .full) :
    (Answer.solutions actual).compare (.solutions expected) .strict = .same ↔
      renderRows 'b' (columnOrder expected actual) [] (arrange (columnOrder expected actual)
          (expected.ordered || actual.ordered) actual.rows) =
        renderRows 'b' (columnOrder expected actual) [] (arrange (columnOrder expected actual)
          (expected.ordered || actual.ordered) expected.rows) := by
  have same_iff : ∀ e a : List String, Comparison.ofLines e a = .same ↔ e = a := by
    intro e a
    unfold Comparison.ofLines
    split <;> simp_all
  rw [compare_strict_of_full full, same_iff]
  simp only [Solutions.render, List.cons.injEq, true_and]
  exact eq_comm

variable (full : actual.fidelity = .full) (hactual : actual.IsDelimited)
  (hexpected : expected.IsDelimited)

include full hactual hexpected

/-- The same verdict without text: the arranged rows are renamings of each other. -/
theorem strict_same_iff_arrange :
    (Answer.solutions actual).compare (.solutions expected) .strict = .same ↔
      ∃ f : String → String, Set.InjOn f {l | l ∈ actual.labels} ∧
        arrange (columnOrder expected actual) (expected.ordered || actual.ordered) expected.rows =
          (arrange (columnOrder expected actual) (expected.ordered || actual.ordered)
            actual.rows).map (Solution.relabel f) := by
  rw [strict_same_iff_lines full, renderRows_eq_iff (by decide)]
  · have hlabels : {l | l ∈ labelsBy (labelsIn (columnOrder expected actual))
        (arrange (columnOrder expected actual) (expected.ordered || actual.ordered) actual.rows)} =
        {l | l ∈ actual.labels} :=
      Set.ext (mem_labelsBy_arrange fun r hr => covered_columnOrder (Or.inl hr))
    rw [hlabels]
  · intro r hr
    simp only [mem_arrange] at hr
    exact hr.elim (hactual r) (hexpected r)
  · intro r hr
    simp only [mem_arrange] at hr
    exact covered_columnOrder hr

/-- The verdict does not depend on the columns: it is about shapes and a renaming. -/
theorem strict_same_iff_renames :
    (Answer.solutions actual).compare (.solutions expected) .strict = .same ↔
      Renames (expected.ordered || actual.ordered) actual.rows expected.rows := by
  rw [strict_same_iff_arrange full hactual hexpected]
  refine exists_congr fun f => and_congr_right fun inj => ?_
  have key_iff : ∀ r, r ∈ actual.rows ∨ r ∈ expected.rows →
      ∀ o, o ∈ actual.rows ∨ o ∈ expected.rows →
      (sortKey (columnOrder expected actual) r = sortKey (columnOrder expected actual) o ↔
        r.shape = o.shape) := fun r hr o ho =>
    sortKey_eq_iff (hr.elim (hactual r) (hexpected r)) (ho.elim (hactual o) (hexpected o))
      (covered_columnOrder hr) (covered_columnOrder ho)
  have covered : ∀ r ∈ actual.rows, ∀ v ∈ r.names, v ∈ columnOrder expected actual := fun r hr =>
    covered_columnOrder (Or.inl hr)
  have key_relabel := sortKey_relabel_of_mem covered inj
  cases hordered : expected.ordered || actual.ordered with
  | true => exact ⟨fun h _ => h, fun h => h Solution.empty⟩
  | false => exact sortRows_eq_map_iff key_iff key_relabel

end Pairs

end SparqlConformance
