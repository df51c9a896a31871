import SparqlConformance.Proofs.WrittenTerms
/-!
# The text of solutions

A line of the canonical text is the plain text of a renamed solution. Under the same columns two plain
texts are equal only for solutions that bind the columns to the same terms, so the lines of two
sequences are equal exactly when the sequences are renamings of each other.
-/
namespace SparqlConformance

open Text

/-- What stands for the value of a column. -/
def valueText : Option Term → List Char
  | none => "UNDEF".toList
  | some t => t.render

def bindingText (row : Solution) (column : String) : List Char :=
  column.toList ++ '=' :: valueText (row.get? column)

/-- The text of a solution with its labels as they are. -/
def rowText (columns : List String) (row : Solution) : List Char :=
  '[' :: (join [',', ' '] (columns.map (bindingText row)) ++ [']'])

/-- The labels of a solution in the order of the columns. -/
def labelsIn (columns : List String) (row : Solution) : List String :=
  columns.filterMap fun c => (row.get? c).bind Term.label?

theorem labelsIn_cons (c : String) (columns : List String) (row : Solution) :
    labelsIn (c :: columns) row =
      ((row.get? c).bind Term.label?).toList ++ labelsIn columns row := by
  cases h : (row.get? c).bind Term.label? <;> simp [labelsIn, h]

theorem labelsIn_relabel (columns : List String) (f : String → String) (row : Solution) :
    labelsIn columns (row.relabel f) = (labelsIn columns row).map f := by
  rw [labelsIn, labelsIn, List.map_filterMap]
  apply List.filterMap_congr
  intro c _
  rw [Solution.get?_relabel]
  cases row.get? c with
  | none => rfl
  | some t => exact Term.label?_relabel f t

theorem mem_labelsIn {columns : List String} {row : Solution}
    (covered : ∀ v ∈ row.names, v ∈ columns) (l : String) :
    l ∈ labelsIn columns row ↔ l ∈ row.labels := by
  rw [Solution.mem_labels_iff, labelsIn, List.mem_filterMap]
  constructor
  · rintro ⟨c, _, h⟩
    obtain ⟨t, ht, hl⟩ := Option.bind_eq_some_iff.mp h
    exact ⟨c, by rw [ht, Term.label?_eq_some.mp hl]⟩
  · rintro ⟨v, hv⟩
    exact ⟨v, covered v (Solution.mem_names_of_get? hv), by rw [hv]; rfl⟩

section Numbering

variable (mark : Char)

theorem renderBinding_snd (seen : Seen) (row : Solution) (c : String) :
    (renderBinding mark seen row c).2 =
      declareAll seen ((row.get? c).bind Term.label?).toList := by
  unfold renderBinding
  cases row.get? c with
  | none => rfl
  | some t => exact renderNumbered_snd mark seen t

theorem renderBinding_fst {seen final : Seen} {row : Solution} {c : String}
    (h : declareAll seen ((row.get? c).bind Term.label?).toList <+: final) :
    (renderBinding mark seen row c).1 =
      bindingText (row.relabel (placeLabel mark final)) c := by
  unfold renderBinding bindingText
  rw [Solution.get?_relabel]
  cases hget : row.get? c with
  | none => simp [valueText]
  | some t =>
    rw [hget] at h
    show c.toList ++ '=' :: (renderNumbered mark seen t).1 = _
    rw [renderNumbered_fst h]
    rfl

theorem renderBindings_snd (row : Solution) (seen : Seen) (columns : List String) :
    (renderBindings mark row seen columns).2 = declareAll seen (labelsIn columns row) := by
  induction columns generalizing seen with
  | nil => rfl
  | cons c columns ih =>
    rw [labelsIn_cons, declareAll_append, ← renderBinding_snd mark]
    exact ih _

theorem renderBindings_fst {row : Solution} {seen final : Seen} {columns : List String}
    (h : declareAll seen (labelsIn columns row) <+: final) :
    (renderBindings mark row seen columns).1 =
      columns.map (bindingText (row.relabel (placeLabel mark final))) := by
  induction columns generalizing seen with
  | nil => rfl
  | cons c columns ih =>
    rw [labelsIn_cons, declareAll_append] at h
    have hhead : (renderBinding mark seen row c).1 = _ :=
      renderBinding_fst mark ((declareAll_extends _ _).trans h)
    have htail : (renderBindings mark row (renderBinding mark seen row c).2 columns).1 = _ :=
      ih (by rw [renderBinding_snd]; exact h)
    rw [List.map_cons, ← hhead, ← htail]
    rfl

theorem renderRow_snd (columns : List String) (seen : Seen) (row : Solution) :
    (renderRow mark columns seen row).2 = declareAll seen (labelsIn columns row) :=
  renderBindings_snd mark row seen columns

theorem renderRow_fst {columns : List String} {seen final : Seen} {row : Solution}
    (h : declareAll seen (labelsIn columns row) <+: final) :
    (renderRow mark columns seen row).1 =
      String.ofList (rowText columns (row.relabel (placeLabel mark final))) := by
  show String.ofList ('[' :: (join [',', ' '] (renderBindings mark row seen columns).1 ++ [']'])) = _
  rw [renderBindings_fst mark h]
  rfl

/-- The lines are the texts of the solutions with each label renamed to its place. -/
theorem renderRows_eq_map {columns : List String} {seen final : Seen} {rows : List Solution}
    (h : declareAll seen (labelsBy (labelsIn columns) rows) <+: final) :
    renderRows mark columns seen rows =
      rows.map fun r => String.ofList (rowText columns (r.relabel (placeLabel mark final))) := by
  -- the labels met so far grow from row to row, and `final` extends them all
  induction rows generalizing seen with
  | nil => rfl
  | cons row rows ih =>
    rw [labelsBy, List.flatMap_cons, declareAll_append] at h
    have hhead := renderRow_fst mark ((declareAll_extends _ _).trans h)
    have htail : renderRows mark columns (renderRow mark columns seen row).2 rows = _ :=
      ih (by rw [renderRow_snd]; exact h)
    rw [List.map_cons, ← hhead, ← htail]
    rfl

theorem renderRows_nil_eq_map (columns : List String) (rows : List Solution) :
    renderRows mark columns [] rows =
      (rows.map (Solution.relabel (placeLabel mark (firstSeen (labelsBy (labelsIn columns) rows))))).map
        fun r => String.ofList (rowText columns r) := by
  rw [renderRows_eq_map mark (List.prefix_refl _), List.map_map]
  rfl

end Numbering

/-- A sort key is the only line of its row under the mark of keys. -/
theorem renderRows_singleton (columns : List String) (row : Solution) :
    renderRows '*' columns [] [row] = [sortKey columns row] := rfl

def Solution.IsDelimited (row : Solution) : Prop := ∀ b ∈ row.bindings, b.2.IsDelimited

instance (row : Solution) : Decidable row.IsDelimited :=
  inferInstanceAs (Decidable (∀ b ∈ row.bindings, b.2.IsDelimited))

theorem Solution.IsDelimited.of_get? {row : Solution} (h : row.IsDelimited) {v : String} {t : Term}
    (hv : row.get? v = some t) : t.IsDelimited :=
  h _ (Solution.get?_eq_some_iff.mp hv)

def Solution.HasPlainLabels (row : Solution) : Prop :=
  ∀ l ∈ row.labels, ∀ c ∈ l.toList, isRunChar c = true

theorem Solution.HasPlainLabels.of_get? {row : Solution} (h : row.HasPlainLabels) {v : String}
    {t : Term} (hv : row.get? v = some t) : t.HasPlainLabel := fun l hl =>
  h l (Solution.mem_labels_iff.mpr ⟨v, by rw [hv, Term.label?_eq_some.mp hl]⟩)

theorem Solution.isDelimited_relabel {f : String → String} {row : Solution} (h : row.IsDelimited) :
    (row.relabel f).IsDelimited := by
  intro b hb
  obtain ⟨a, ha, rfl⟩ := List.mem_map.mp hb
  exact Term.isDelimited_relabel (h a ha)

theorem Solution.hasPlainLabels_relabel {mark : Char} (hmark : isRunChar mark = true) (seen : Seen)
    (row : Solution) : (row.relabel (placeLabel mark seen)).HasPlainLabels := by
  intro l hl
  rw [Solution.labels_relabel] at hl
  obtain ⟨k, _, rfl⟩ := List.mem_map.mp hl
  rw [placeLabel, String.toList_ofList]
  exact numbered_plain hmark _

theorem valueText_append_inj {x y : Option Term} (hx : ∀ t, x = some t → t.IsDelimited)
    (hy : ∀ t, y = some t → t.IsDelimited) (plain_x : ∀ t, x = some t → t.HasPlainLabel)
    (plain_y : ∀ t, y = some t → t.HasPlainLabel) {r s : List Char} (hr : EndsTerm r)
    (hs : EndsTerm s) (h : valueText x ++ r = valueText y ++ s) : x = y ∧ r = s := by
  have unbound : ∀ t : Term, ∀ {q q' : List Char}, "UNDEF".toList ++ q ≠ t.render ++ q' := by
    intro t q q' heq
    rcases t with i | l | (v | ⟨v, g⟩ | ⟨v, d⟩) <;>
      simp [Term.render, Literal.render, angled, quoted] at heq
  cases x with
  | none =>
    cases y with
    | none => exact ⟨rfl, List.append_cancel_left h⟩
    | some u => exact absurd h (unbound u)
  | some t =>
    cases y with
    | none => exact absurd h.symm (unbound t)
    | some u =>
      obtain ⟨htu, hrest⟩ := Term.render_append_inj (hx t rfl) (hy u rfl) (plain_x t rfl)
        (plain_y u rfl) hr hs h
      exact ⟨congrArg some htu, hrest⟩

theorem endsTerm_bracket : EndsTerm [']'] := by
  rintro c h
  exact Or.inr (Or.inl (Option.some.inj h).symm)

theorem endsTerm_comma (r : List Char) : EndsTerm (',' :: r) := by
  rintro c h
  exact Or.inl (Option.some.inj h).symm

/-- Under the same columns the text of a solution tells the values of the columns. -/
theorem get?_eq_of_rowText_eq {columns : List String} {row other : Solution}
    (hrow : row.IsDelimited) (hother : other.IsDelimited) (plain_row : row.HasPlainLabels)
    (plain_other : other.HasPlainLabels) (h : rowText columns row = rowText columns other) :
    ∀ c ∈ columns, row.get? c = other.get? c := by
  have value : ∀ {c : String} {r s : List Char}, EndsTerm r → EndsTerm s →
      bindingText row c ++ r = bindingText other c ++ s → row.get? c = other.get? c ∧ r = s := by
    intro c r s hr hs heq
    simp only [bindingText, List.append_assoc, List.cons_append, List.append_cancel_left_eq,
      List.cons.injEq, true_and] at heq
    exact valueText_append_inj (fun t => hrow.of_get?) (fun t => hother.of_get?)
      (fun t => plain_row.of_get?) (fun t => plain_other.of_get?) hr hs heq
  have hjoin : join [',', ' '] (columns.map (bindingText row)) ++ [']'] =
      join [',', ' '] (columns.map (bindingText other)) ++ [']'] := (List.cons.inj h).2
  clear h
  induction columns with
  | nil => exact fun c hc => absurd hc List.not_mem_nil
  | cons c columns ih =>
    cases columns with
    | nil =>
      intro d hd
      rw [List.mem_singleton.mp hd]
      exact (value endsTerm_bracket endsTerm_bracket hjoin).1
    | cons d columns =>
      simp only [List.map_cons, join, List.append_assoc, List.cons_append, List.nil_append] at hjoin
      obtain ⟨hvalue, htail⟩ := value (endsTerm_comma _) (endsTerm_comma _) hjoin
      have hrest := ih (by simpa using htail)
      intro e he
      rcases List.mem_cons.mp he with rfl | he
      · exact hvalue
      · exact hrest e he

theorem eq_of_rowText_eq {columns : List String} {row other : Solution} (hrow : row.IsDelimited)
    (hother : other.IsDelimited) (plain_row : row.HasPlainLabels)
    (plain_other : other.HasPlainLabels) (covered : ∀ v ∈ row.names, v ∈ columns)
    (covered_other : ∀ v ∈ other.names, v ∈ columns)
    (h : rowText columns row = rowText columns other) : row = other := by
  apply Solution.ext_get?
  intro v
  by_cases hv : v ∈ columns
  · exact get?_eq_of_rowText_eq hrow hother plain_row plain_other h v hv
  · rw [Solution.get?_eq_none fun hmem => hv (covered v hmem),
      Solution.get?_eq_none fun hmem => hv (covered_other v hmem)]

/-- Renamed solutions have the same lines, whatever their terms hold. -/
theorem renderRows_relabel (mark : Char) {columns : List String} {rows : List Solution}
    (covered : ∀ r ∈ rows, ∀ v ∈ r.names, v ∈ columns) {f : String → String}
    (inj : Set.InjOn f {l | l ∈ labelsBy (labelsIn columns) rows}) :
    renderRows mark columns [] (rows.map (Solution.relabel f)) =
      renderRows mark columns [] rows := by
  have covered_all : ∀ r, r ∈ rows ∨ r ∈ rows.map (Solution.relabel f) →
      ∀ v ∈ r.names, v ∈ columns := by
    rintro r (hr | hr)
    · exact covered r hr
    · obtain ⟨o, ho, rfl⟩ := List.mem_map.mp hr
      rw [Solution.names_relabel]
      exact covered o ho
  have h := (numbered_rows_eq_iff mark (labelsIn columns) rows (rows.map (Solution.relabel f))
    (fun r hr l => mem_labelsIn (covered_all r hr) l)
    (labelsIn_relabel columns)).mpr ⟨f, inj, rfl⟩
  rw [renderRows_nil_eq_map, renderRows_nil_eq_map, h]

theorem sortKey_relabel {columns : List String} {row : Solution}
    (covered : ∀ v ∈ row.names, v ∈ columns) {f : String → String}
    (inj : Set.InjOn f {l | l ∈ row.labels}) :
    sortKey columns (row.relabel f) = sortKey columns row := by
  have hlabels : Set.InjOn f {l | l ∈ labelsBy (labelsIn columns) [row]} := by
    refine inj.mono fun l hl => ?_
    obtain ⟨r, hr, hlr⟩ := List.mem_flatMap.mp hl
    rw [List.mem_singleton.mp hr] at hlr
    exact (mem_labelsIn covered l).mp hlr
  have h := renderRows_relabel '*' (by simpa using covered) hlabels
  rw [List.map_singleton, renderRows_singleton, renderRows_singleton] at h
  exact (List.cons.inj h).1

/-- Equal lines stand for solutions that are renamings of each other, and only for those. -/
theorem renderRows_eq_iff {mark : Char} (hmark : isRunChar mark = true) {columns : List String}
    {rows others : List Solution}
    (delimited : ∀ r, r ∈ rows ∨ r ∈ others → r.IsDelimited)
    (covered : ∀ r, r ∈ rows ∨ r ∈ others → ∀ v ∈ r.names, v ∈ columns) :
    renderRows mark columns [] rows = renderRows mark columns [] others ↔
      ∃ f : String → String, Set.InjOn f {l | l ∈ labelsBy (labelsIn columns) rows} ∧
        others = rows.map (Solution.relabel f) := by
  constructor
  · intro h
    rw [renderRows_nil_eq_map, renderRows_nil_eq_map] at h
    refine (numbered_rows_eq_iff mark (labelsIn columns) rows others
      (fun r hr l => mem_labelsIn (covered r hr) l)
      (labelsIn_relabel columns)).mp ?_
    have hid := eq_map_of_map_eq (h := id) h ?_
    · rw [List.map_id] at hid
      exact hid.symm
    · intro a ha b hb heq
      show b = a
      obtain ⟨r, hr, rfl⟩ := List.mem_map.mp ha
      obtain ⟨o, ho, rfl⟩ := List.mem_map.mp hb
      refine eq_of_rowText_eq ?_ ?_ ?_ ?_ ?_ ?_ (String.ofList_injective heq.symm)
      · exact Solution.isDelimited_relabel (delimited o (Or.inr ho))
      · exact Solution.isDelimited_relabel (delimited r (Or.inl hr))
      · exact Solution.hasPlainLabels_relabel hmark _ o
      · exact Solution.hasPlainLabels_relabel hmark _ r
      · rw [Solution.names_relabel]
        exact covered o (Or.inr ho)
      · rw [Solution.names_relabel]
        exact covered r (Or.inl hr)
  · rintro ⟨f, inj, rfl⟩
    exact (renderRows_relabel mark (fun r hr => covered r (Or.inl hr)) inj).symm

end SparqlConformance
