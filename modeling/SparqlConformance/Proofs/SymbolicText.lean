import SparqlConformance.Proofs.RowText
/-!
# Symbolic text

The text of a solution with its labels left open. IRIs may hold any characters here, so a line alone
need not tell which parts of it are labels; but a line under two marks does, since only the labels
change with the mark.
-/
namespace SparqlConformance

/-- A text in which some places hold a label. -/
abbrev Symbolic := List (Char ⊕ String)

namespace Symbolic

def ofText (s : List Char) : Symbolic := s.map .inl

/-- Writes every label as the blank node of a name. -/
def fill (f : String → String) (x : Symbolic) : List Char :=
  x.flatMap fun
    | .inl c => [c]
    | .inr l => '_' :: ':' :: (f l).toList

def relabel (f : String → String) (x : Symbolic) : Symbolic := x.map (Sum.map id f)

/-- Every label is followed by a character that is no digit. -/
def IsSpaced : Symbolic → Prop
  | [] => True
  | .inl _ :: x => IsSpaced x
  | .inr _ :: x => (∃ c y, x = .inl c :: y ∧ c.isDigit = false) ∧ IsSpaced x

theorem fill_inl (f : String → String) (c : Char) (x : Symbolic) :
    fill f (.inl c :: x) = c :: fill f x := rfl

theorem fill_inr (f : String → String) (l : String) (x : Symbolic) :
    fill f (.inr l :: x) = '_' :: ':' :: ((f l).toList ++ fill f x) := rfl

theorem relabel_inl (f : String → String) (c : Char) (x : Symbolic) :
    relabel f (.inl c :: x) = .inl c :: relabel f x := rfl

theorem relabel_inr (f : String → String) (l : String) (x : Symbolic) :
    relabel f (.inr l :: x) = .inr (f l) :: relabel f x := rfl

@[simp] theorem fill_append (f : String → String) (x y : Symbolic) :
    fill f (x ++ y) = fill f x ++ fill f y :=
  List.flatMap_append

@[simp] theorem fill_ofText (f : String → String) (s : List Char) : fill f (ofText s) = s := by
  simp [fill, ofText, List.flatMap_map]

@[simp] theorem relabel_append (f : String → String) (x y : Symbolic) :
    relabel f (x ++ y) = relabel f x ++ relabel f y :=
  List.map_append

@[simp] theorem relabel_ofText (f : String → String) (s : List Char) :
    relabel f (ofText s) = ofText s := by
  simp [relabel, ofText]

theorem isSpaced_ofText_append (s : List Char) {x : Symbolic} (h : x.IsSpaced) :
    (ofText s ++ x).IsSpaced := by
  induction s with
  | nil => exact h
  | cons c s ih => exact ih

/-- The labels of a text, in their order. -/
def labels (x : Symbolic) : List String := x.filterMap Sum.getRight?

@[simp] theorem labels_append (x y : Symbolic) : labels (x ++ y) = labels x ++ labels y :=
  List.filterMap_append

@[simp] theorem labels_ofText (s : List Char) : labels (ofText s) = [] := by
  simp [labels, ofText]

theorem labels_relabel (f : String → String) (x : Symbolic) :
    labels (relabel f x) = (labels x).map f := by
  rw [labels, relabel, List.filterMap_map, labels, List.map_filterMap]
  apply List.filterMap_congr
  intro a _
  cases a <;> rfl

theorem eq_relabel_of_relabel_eq {f g rename : String → String} {x y : Symbolic}
    (h : x.relabel f = y.relabel g)
    (unique : ∀ l ∈ x.labels, ∀ m ∈ y.labels, g m = f l → m = rename l) :
    y = x.relabel rename := by
  refine eq_map_of_map_eq h ?_
  rintro (c | l) ha (d | m) hb heq
  · exact congrArg Sum.inl (Sum.inl.inj heq).symm
  · cases heq
  · cases heq
  · have hl : l ∈ x.labels := List.mem_filterMap.mpr ⟨_, ha, rfl⟩
    have hm : m ∈ y.labels := List.mem_filterMap.mpr ⟨_, hb, rfl⟩
    exact congrArg Sum.inr (unique l hl m hm (Sum.inr.inj heq).symm)

/-- Two numbered labels at one place, with what follows them. -/
theorem numbered_append_inj {mark : Char} {s t : Seen} {l m : String} {x y : List Char}
    (hx : ∃ c r, x = c :: r ∧ c.isDigit = false) (hy : ∃ c r, y = c :: r ∧ c.isDigit = false)
    (h : (placeLabel mark s l).toList ++ x = (placeLabel mark t m).toList ++ y) :
    placeLabel mark s l = placeLabel mark t m ∧ x = y := by
  obtain ⟨c, r, rfl, hc⟩ := hx
  obtain ⟨d, q, rfl, hd⟩ := hy
  simp only [placeLabel, String.toList_ofList, List.cons_append, List.cons.injEq, true_and] at h
  have digits : ∀ n, ∀ a ∈ Nat.toDigits 10 n, a.isDigit = true := fun n a ha =>
    Nat.isDigit_of_mem_toDigits (by omega) (by omega) ha
  have stop : ∀ {e : Char} {z : List Char}, e.isDigit = false →
      ∀ a, (e :: z).head? = some a → a.isDigit = false := by
    rintro e z he a ha
    rwa [← Option.some.inj ha]
  obtain ⟨hnumber, hrest⟩ := run_append_inj (digits _) (digits _) (stop hc) (stop hd) h
  exact ⟨by rw [placeLabel, placeLabel, hnumber], hrest⟩

theorem fill_spaced {f : String → String} {x : Symbolic}
    (h : ∃ c y, x = .inl c :: y ∧ c.isDigit = false) :
    ∃ c r, fill f x = c :: r ∧ c.isDigit = false := by
  obtain ⟨c, y, rfl, hc⟩ := h
  exact ⟨c, fill f y, rfl, hc⟩

/-- A label and a character at one place differ under one of two marks. -/
theorem not_fill_inr_inl {marks lines marks' lines' : String → String} {l : String} {c : Char}
    {x y : Symbolic} (hmark : ∃ r, (marks l).toList = '*' :: r)
    (hline : ∃ r, (lines l).toList = 'b' :: r)
    (h : fill marks (.inr l :: x) = fill marks' (.inl c :: y))
    (h' : fill lines (.inr l :: x) = fill lines' (.inl c :: y)) : False := by
  obtain ⟨r, hr⟩ := hmark
  obtain ⟨q, hq⟩ := hline
  -- the label needs three characters, and the third one differs between the marks
  match y with
  | [] => simp [fill] at h
  | .inr _ :: _ => simp [fill] at h
  | [.inl _] => simp [fill, hr] at h
  | .inl _ :: .inr _ :: _ => simp [fill, hr] at h
  | .inl _ :: .inl _ :: _ =>
    simp [fill, hr] at h
    simp [fill, hq] at h'
    have hb := h'.2.2.1
    rw [← h.2.2.1] at hb
    cases hb

/-- Symbolic texts that are equal under both marks are equal up to the names of labels. -/
theorem relabel_eq_of_fill_eq {s t s' t' : Seen} {x y : Symbolic} (hx : x.IsSpaced)
    (hy : y.IsSpaced)
    (keys : fill (placeLabel '*' s) x = fill (placeLabel '*' t) y)
    (lines : fill (placeLabel 'b' s') x = fill (placeLabel 'b' t') y) :
    x.relabel (placeLabel 'b' s') = y.relabel (placeLabel 'b' t') := by
  have marked : ∀ mark seen l, ∃ r, (placeLabel mark seen l).toList = mark :: r := by
    intro mark seen l
    exact ⟨_, String.toList_ofList⟩
  induction x generalizing y with
  | nil =>
    cases y with
    | nil => rfl
    | cons b y => cases b <;> simp [fill] at keys
  | cons a x ih =>
    cases y with
    | nil => cases a <;> simp [fill] at keys
    | cons b y =>
      cases a with
      | inl c =>
        cases b with
        | inl d =>
          rw [fill_inl, fill_inl] at keys lines
          obtain ⟨hcd, hkeys⟩ := List.cons.inj keys
          have hrest := ih (y := y) hx hy hkeys (List.cons.inj lines).2
          rw [relabel_inl, relabel_inl, hcd, hrest]
        | inr m =>
          exact (not_fill_inr_inl (marked '*' t m) (marked 'b' t' m) keys.symm lines.symm).elim
      | inr l =>
        cases b with
        | inl d => exact (not_fill_inr_inl (marked '*' s l) (marked 'b' s' l) keys lines).elim
        | inr m =>
          rw [fill_inr, fill_inr] at keys lines
          have hkeys := (numbered_append_inj (fill_spaced hx.1) (fill_spaced hy.1)
            (List.cons.inj (List.cons.inj keys).2).2).2
          obtain ⟨hlabel, hlines⟩ := numbered_append_inj (fill_spaced hx.1) (fill_spaced hy.1)
            (List.cons.inj (List.cons.inj lines).2).2
          have hrest := ih hx.2 hy.2 hkeys hlines
          rw [relabel_inr, relabel_inr, hlabel, hrest]

end Symbolic

end SparqlConformance
