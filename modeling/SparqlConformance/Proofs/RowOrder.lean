import Mathlib
import SparqlConformance.Proofs.SolutionMatching
import SparqlConformance.Proofs.SymbolicText
/-!
# Order of rows

What the order of the rows does to the strict comparison of solutions whose order does not count. Rows
are sorted by a key that forgets labels, so rows with one key keep the order they came in, and labels
are numbered in that order.
-/
namespace SparqlConformance

open Text Symbolic

def symbolicValue : Option Term → Symbolic
  | some (.blank l) => [.inr l]
  | v => ofText (valueText v)

def symbolicBinding (row : Solution) (column : String) : Symbolic :=
  ofText (column.toList ++ ['=']) ++ symbolicValue (row.get? column)

/-- Bindings with commas between them, and the bracket behind them. -/
def symbolicBindings (row : Solution) : List String → Symbolic
  | [] => ofText [']']
  | [c] => symbolicBinding row c ++ ofText [']']
  | c :: d :: cs => symbolicBinding row c ++ (ofText [',', ' '] ++ symbolicBindings row (d :: cs))

/-- The text of a solution with its labels left open. -/
def symbolicRow (columns : List String) (row : Solution) : Symbolic :=
  ofText ['['] ++ symbolicBindings row columns

theorem fill_symbolicValue (f : String → String) (v : Option Term) :
    fill f (symbolicValue v) = valueText (v.map (Term.relabel f)) := by
  rcases v with _ | (i | l | v)
  · exact fill_ofText f _
  · exact fill_ofText f _
  · simp [symbolicValue, fill, valueText, Term.relabel, Term.render]
  · exact fill_ofText f _

theorem fill_symbolicBinding (f : String → String) (row : Solution) (c : String) :
    fill f (symbolicBinding row c) = bindingText (row.relabel f) c := by
  rw [symbolicBinding, fill_append, fill_ofText, fill_symbolicValue, bindingText,
    Solution.get?_relabel, List.append_assoc, List.singleton_append]

theorem fill_symbolicBindings (f : String → String) (row : Solution) (columns : List String) :
    fill f (symbolicBindings row columns) =
      join [',', ' '] (columns.map (bindingText (row.relabel f))) ++ [']'] := by
  induction columns with
  | nil => rfl
  | cons c columns ih =>
    cases columns with
    | nil =>
      rw [symbolicBindings, fill_append, fill_symbolicBinding, fill_ofText]
      rfl
    | cons d columns =>
      rw [symbolicBindings, fill_append, fill_append, fill_symbolicBinding, fill_ofText, ih]
      simp only [List.map_cons, join, List.append_assoc]

/-- The open text filled with names is the text of the renamed solution. -/
theorem fill_symbolicRow (f : String → String) (columns : List String) (row : Solution) :
    fill f (symbolicRow columns row) = rowText columns (row.relabel f) := by
  rw [symbolicRow, fill_append, fill_ofText, fill_symbolicBindings]
  rfl

theorem symbolicValue_relabel (f : String → String) (v : Option Term) :
    symbolicValue (v.map (Term.relabel f)) = (symbolicValue v).relabel f := by
  rcases v with _ | (i | l | v)
  · exact (relabel_ofText f _).symm
  · exact (relabel_ofText f _).symm
  · rfl
  · exact (relabel_ofText f _).symm

theorem symbolicBindings_relabel (f : String → String) (row : Solution) (columns : List String) :
    symbolicBindings (row.relabel f) columns = (symbolicBindings row columns).relabel f := by
  have binding : ∀ c, symbolicBinding (row.relabel f) c = (symbolicBinding row c).relabel f := by
    intro c
    rw [symbolicBinding, symbolicBinding, relabel_append, relabel_ofText, Solution.get?_relabel,
      symbolicValue_relabel]
  induction columns with
  | nil => exact (relabel_ofText f _).symm
  | cons c columns ih =>
    cases columns with
    | nil => rw [symbolicBindings, symbolicBindings, relabel_append, relabel_ofText, binding]
    | cons d columns =>
      rw [symbolicBindings, symbolicBindings, relabel_append, relabel_append, relabel_ofText,
        binding, ih]

theorem symbolicRow_relabel (f : String → String) (columns : List String) (row : Solution) :
    symbolicRow columns (row.relabel f) = (symbolicRow columns row).relabel f := by
  rw [symbolicRow, symbolicRow, relabel_append, relabel_ofText, symbolicBindings_relabel]

theorem labels_symbolicValue (v : Option Term) :
    (symbolicValue v).labels = (v.bind Term.label?).toList := by
  rcases v with _ | (i | l | v)
  · exact labels_ofText _
  · exact labels_ofText _
  · rfl
  · exact labels_ofText _

theorem labels_symbolicRow (columns : List String) (row : Solution) :
    (symbolicRow columns row).labels = labelsIn columns row := by
  have binding : ∀ c, (symbolicBinding row c).labels = ((row.get? c).bind Term.label?).toList := by
    intro c
    rw [symbolicBinding, labels_append, labels_ofText, List.nil_append, labels_symbolicValue]
  rw [symbolicRow, labels_append, labels_ofText, List.nil_append]
  induction columns with
  | nil => exact labels_ofText _
  | cons c columns ih =>
    rw [labelsIn_cons]
    cases columns with
    | nil =>
      rw [symbolicBindings, labels_append, labels_ofText, binding]
      rfl
    | cons d columns =>
      rw [symbolicBindings, labels_append, labels_append, labels_ofText, binding, ih,
        List.nil_append]

/-- Behind every label stands a comma or a bracket. -/
theorem isSpaced_symbolicRow (columns : List String) (row : Solution) :
    (symbolicRow columns row).IsSpaced := by
  have binding : ∀ c (x : Symbolic), x.IsSpaced → (∃ d y, x = .inl d :: y ∧ d.isDigit = false) →
      (symbolicBinding row c ++ x).IsSpaced := by
    intro c x hx hhead
    rw [symbolicBinding, List.append_assoc]
    apply isSpaced_ofText_append
    rcases row.get? c with _ | (i | l | v)
    · exact isSpaced_ofText_append _ hx
    · exact isSpaced_ofText_append _ hx
    · exact ⟨hhead, hx⟩
    · exact isSpaced_ofText_append _ hx
  apply isSpaced_ofText_append
  induction columns with
  | nil => exact trivial
  | cons c columns ih =>
    cases columns with
    | nil => exact binding c _ trivial ⟨_, _, rfl, by decide⟩
    | cons d columns =>
      exact binding c _ (isSpaced_ofText_append _ ih) ⟨_, _, rfl, by decide⟩

theorem labelsBy_symbolicRow (columns : List String) (rows : List Solution) :
    labelsBy labels (rows.map (symbolicRow columns)) = labelsBy (labelsIn columns) rows := by
  rw [labelsBy, labelsBy, List.flatMap_map]
  exact List.flatMap_congr fun r _ => labels_symbolicRow columns r

/-- What the lines are, told by the open texts of the rows alone. -/
theorem renderRows_nil_eq_fill (mark : Char) (columns : List String) (rows : List Solution) :
    renderRows mark columns [] rows = (rows.map (symbolicRow columns)).map fun x =>
      String.ofList (fill (placeLabel mark
        (firstSeen (labelsBy labels (rows.map (symbolicRow columns))))) x) := by
  rw [labelsBy_symbolicRow, renderRows_nil_eq_map, List.map_map, List.map_map]
  apply List.map_congr_left
  intro r _
  rw [Function.comp_apply, Function.comp_apply, fill_symbolicRow]

theorem sortKey_eq_fill (columns : List String) (row : Solution) :
    sortKey columns row = String.ofList
      (fill (placeLabel '*' (firstSeen (labelsIn columns row))) (symbolicRow columns row)) := by
  have h := renderRows_nil_eq_fill '*' columns [row]
  rw [renderRows_singleton] at h
  simpa [labelsBy, labels_symbolicRow] using h

/-- Sorting forgets the order of the rows as far as their keys go. -/
theorem map_sortKey_sortRows_of_perm {columns : List String} {rows others : List Solution}
    (h : (rows.map (sortKey columns)).Perm (others.map (sortKey columns))) :
    (sortRows columns rows).map (sortKey columns) =
      (sortRows columns others).map (sortKey columns) := by
  have sorted : ∀ rs, ((sortRows columns rs).map (sortKey columns)).Pairwise (· ≤ ·) := fun rs =>
    List.pairwise_map.mpr (sortRows_sorted columns rs)
  have perm : ((sortRows columns rows).map (sortKey columns)).Perm
      ((sortRows columns others).map (sortKey columns)) :=
    (((sortRows_perm columns rows).map _).trans h).trans ((sortRows_perm columns others).map _).symm
  exact perm.eq_of_pairwise (fun a b _ _ hab hba => String.le_antisymm hab hba) (sorted rows)
    (sorted others)

/-- Rows with equal keys and equal lines are written alike up to one renaming of labels. -/
theorem exists_relabel_of_lines_eq {columns : List String} {rows others : List Solution}
    (keys : rows.map (sortKey columns) = others.map (sortKey columns))
    (lines : renderRows 'b' columns [] rows = renderRows 'b' columns [] others) :
    ∃ f : String → String, Set.InjOn f {l | l ∈ labelsBy (labelsIn columns) rows} ∧
      others.map (symbolicRow columns) = (rows.map (symbolicRow columns)).map (relabel f) := by
  -- keys and lines are the same open texts under two marks
  have same : (rows.map (symbolicRow columns)).map (relabel (placeLabel 'b'
        (firstSeen (labelsBy labels (rows.map (symbolicRow columns)))))) =
      (others.map (symbolicRow columns)).map (relabel (placeLabel 'b'
        (firstSeen (labelsBy labels (others.map (symbolicRow columns)))))) := by
    rw [renderRows_nil_eq_fill, renderRows_nil_eq_fill, List.map_map, List.map_map] at lines
    have both := congrArg₂ List.zip keys lines
    rw [List.zip_map', List.zip_map'] at both
    rw [List.map_map, List.map_map]
    refine map_eq_of_map_eq both fun r _ o _ heq => ?_
    obtain ⟨hkey, hline⟩ := Prod.mk.inj heq
    rw [sortKey_eq_fill, sortKey_eq_fill] at hkey
    exact relabel_eq_of_fill_eq (isSpaced_symbolicRow columns r) (isSpaced_symbolicRow columns o)
      (String.ofList_injective hkey) (String.ofList_injective hline)
  rw [← labelsBy_symbolicRow]
  exact exists_renaming_of_numbered labels_relabel
    (fun _ _ _ _ _ _ _ heq unique => eq_relabel_of_relabel_eq heq unique) same

/-- Sorted rows with the same keys have the same lines exactly when one renaming of labels pairs the
rows of each key in the order they came in. -/
theorem sorted_lines_eq_iff {columns : List String} {rows others : List Solution}
    (covered : ∀ r ∈ rows, ∀ v ∈ r.names, v ∈ columns)
    (keys : (rows.map (sortKey columns)).Perm (others.map (sortKey columns))) :
    renderRows 'b' columns [] (sortRows columns rows) =
        renderRows 'b' columns [] (sortRows columns others) ↔
      ∃ f : String → String, Set.InjOn f {l | l ∈ labelsBy Solution.labels rows} ∧
        ∀ k, (keyClass (sortKey columns) k others).map (symbolicRow columns) =
          (keyClass (sortKey columns) k rows).map fun r => symbolicRow columns (r.relabel f) := by
  have mem_labels : ∀ l, l ∈ labelsBy (labelsIn columns) (arrange columns false rows) ↔
      l ∈ labelsBy Solution.labels rows := mem_labelsBy_arrange covered
  have hlabels : {l | l ∈ labelsBy (labelsIn columns) (sortRows columns rows)} =
      {l | l ∈ labelsBy Solution.labels rows} := Set.ext mem_labels
  constructor
  · intro lines
    have sorted_keys := map_sortKey_sortRows_of_perm keys
    obtain ⟨f, inj, alike⟩ := exists_relabel_of_lines_eq sorted_keys lines
    rw [hlabels] at inj
    rw [List.map_map] at alike
    refine ⟨f, inj, map_sortRows_eq_iff.mp ?_⟩
    have both := congrArg₂ List.zip sorted_keys.symm alike
    rw [List.zip_map', List.zip_map'] at both
    simpa only [symbolicRow_relabel, Function.comp_apply] using both
  · rintro ⟨f, inj, classes⟩
    have alike := congrArg (List.map Prod.snd) (map_sortRows_eq_iff.mpr classes)
    rw [List.map_map, List.map_map] at alike
    have written : (sortRows columns others).map (symbolicRow columns) =
        ((sortRows columns rows).map (Solution.relabel f)).map (symbolicRow columns) := by
      rw [List.map_map]
      exact alike
    have moved : renderRows 'b' columns [] ((sortRows columns rows).map (Solution.relabel f)) =
        renderRows 'b' columns [] (sortRows columns rows) :=
      renderRows_relabel 'b' (fun r hr => covered r ((sortRows_perm _ _).mem_iff.mp hr))
        (hlabels ▸ inj)
    rw [← moved, renderRows_nil_eq_fill, renderRows_nil_eq_fill, written]

/-- For an answer with permuted rows and renamed labels the comparison says the same exactly when one
renaming of labels pairs the rows of each sort key in the order they came in. -/
theorem strict_same_of_permuted_iff {actual expected : Solutions} {g : String → String}
    (full : actual.fidelity = .full) (unordered : actual.ordered = false)
    (unordered_expected : expected.ordered = false)
    (inj : Set.InjOn g {l | l ∈ expected.labels})
    (permuted : actual.rows.Perm (expected.rows.map (Solution.relabel g))) :
    (Answer.solutions actual).compare (.solutions expected) .strict = .same ↔
      ∃ f : String → String, Set.InjOn f {l | l ∈ actual.labels} ∧
        ∀ k, (keyClass (sortKey (columnOrder expected actual)) k expected.rows).map
            (symbolicRow (columnOrder expected actual)) =
          (keyClass (sortKey (columnOrder expected actual)) k actual.rows).map fun r =>
            symbolicRow (columnOrder expected actual) (r.relabel f) := by
  have keys : (actual.rows.map (sortKey (columnOrder expected actual))).Perm
      (expected.rows.map (sortKey (columnOrder expected actual))) := by
    have h := permuted.map (sortKey (columnOrder expected actual))
    rw [List.map_map] at h
    exact h.trans (.of_eq (List.map_congr_left
      (sortKey_relabel_of_mem (fun r hr => covered_columnOrder (Or.inr hr)) inj)))
  rw [strict_same_iff_lines full, unordered, unordered_expected]
  exact sorted_lines_eq_iff (fun r hr => covered_columnOrder (Or.inl hr)) keys

/-- Solutions that bind one variable to a blank node each. -/
def blankRows (labels : List String) : Solutions :=
  (Solutions.ofVariables ["x"]).pushAll (labels.map fun l => Solution.ofPairs [("x", .blank l)])

theorem renaming_of_two_rows :
    ∃ f : String → String, Set.InjOn f {l | l ∈ (blankRows ["n", "m"]).labels} ∧
      ∀ k, (keyClass (sortKey ["x"]) k (blankRows ["a", "b"]).rows).map (symbolicRow ["x"]) =
        (keyClass (sortKey ["x"]) k (blankRows ["n", "m"]).rows).map fun r =>
          symbolicRow ["x"] (r.relabel f) := by
  have inj : Set.InjOn (fun l => if l = "a" then "m" else "n")
      {l | l ∈ (blankRows ["a", "b"]).labels} := by
    have hlabels : (blankRows ["a", "b"]).labels = ["a", "b"] := by decide
    rw [hlabels]
    intro l hl m hm
    simp only [Set.mem_ofPred_eq, List.mem_cons, List.not_mem_nil, or_false] at hl hm
    rcases hl with rfl | rfl <;> rcases hm with rfl | rfl <;> simp
  have permuted : (blankRows ["n", "m"]).rows.Perm ((blankRows ["a", "b"]).rows.map
      (Solution.relabel fun l => if l = "a" then "m" else "n")) := by
    decide
  exact (strict_same_of_permuted_iff (g := fun l => if l = "a" then "m" else "n") rfl rfl rfl inj
    permuted).mp (by cbv)

/-- The place of a row among rows that look the same tells on the labels of the rows behind it. -/
theorem differ_of_permuted_rows :
    (blankRows ["a", "b", "a"]).rows.Perm ((blankRows ["a", "a", "b"]).rows.map (Solution.relabel id)) ∧
      (Answer.solutions (blankRows ["a", "b", "a"])).compare (.solutions (blankRows ["a", "a", "b"]))
        .strict ≠ .same := by
  refine ⟨by decide, ?_⟩
  rw [Ne, strict_same_iff_lines rfl]
  cbv
  decide

end SparqlConformance
