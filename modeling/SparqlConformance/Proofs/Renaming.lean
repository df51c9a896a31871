import SparqlConformance.Proofs.FirstSight
import SparqlConformance.Proofs.MemberLists
/-!
# Renaming of blank nodes

Terms, solutions and triples with their blank nodes renamed. Numbering blank nodes along a text is a
renaming that is fixed once the whole text is known, and two sequences of solutions have equal numbered
forms exactly when one is a renaming of the other.
-/
namespace SparqlConformance

namespace Term

/-- The term with its blank node renamed. -/
def relabel (f : String → String) : Term → Term
  | blank l => blank (f l)
  | t => t

/-- The label of a blank node. -/
def label? : Term → Option String
  | blank l => some l
  | _ => none

@[simp] theorem label?_relabel (f : String → String) (t : Term) :
    (t.relabel f).label? = t.label?.map f := by
  cases t <;> rfl

theorem relabel_relabel (f g : String → String) (t : Term) :
    (t.relabel f).relabel g = t.relabel (g ∘ f) := by
  cases t <;> rfl

theorem relabel_congr {f g : String → String} {t : Term}
    (h : ∀ l, t.label? = some l → f l = g l) : t.relabel f = t.relabel g := by
  cases t with
  | blank l => exact congrArg blank (h l rfl)
  | iri _ => rfl
  | literal _ => rfl

theorem relabel_eq_self {f : String → String} {t : Term}
    (h : ∀ l, t.label? = some l → f l = l) : t.relabel f = t := by
  cases t with
  | blank l => exact congrArg blank (h l rfl)
  | iri _ => rfl
  | literal _ => rfl

theorem label?_eq_some {t : Term} {l : String} : t.label? = some l ↔ t = blank l := by
  cases t <;> simp [label?]

/-- Terms that two renamings make equal are blank nodes with equal images, or are equal. -/
theorem relabel_eq_relabel {f g : String → String} {t u : Term} (h : t.relabel f = u.relabel g) :
    (∃ l m, t = blank l ∧ u = blank m ∧ f l = g m) ∨ (t.label? = none ∧ t = u) := by
  cases t <;> cases u <;> simp_all [relabel, label?]

/-- A renaming that keeps the labels of two terms apart keeps the terms apart. -/
theorem eq_of_relabel_eq {f : String → String} {t u : Term}
    (inj : ∀ l m, t.label? = some l → u.label? = some m → f l = f m → l = m)
    (h : t.relabel f = u.relabel f) : t = u := by
  rcases relabel_eq_relabel h with ⟨l, m, rfl, rfl, heq⟩ | ⟨_, rfl⟩
  · rw [inj l m rfl rfl heq]
  · rfl

end Term

namespace Solution

/-- The solution with its blank nodes renamed. -/
def relabel (f : String → String) (row : Solution) : Solution :=
  ⟨row.bindings.map fun (n, v) => (n, v.relabel f), by
    refine List.pairwise_map.mpr (row.increasing.imp ?_)
    exact fun h => h⟩

/-- The labels of the blank nodes, in the order of the variables' names. -/
def labels (row : Solution) : List String := row.bindings.filterMap fun b => b.2.label?

@[simp] theorem names_relabel (f : String → String) (row : Solution) :
    (row.relabel f).names = row.names := by
  simp [names, relabel, Function.comp_def]

@[simp] theorem labels_relabel (f : String → String) (row : Solution) :
    (row.relabel f).labels = row.labels.map f := by
  simp [labels, relabel, List.filterMap_map, List.map_filterMap]

@[simp] theorem get?_relabel (f : String → String) (row : Solution) (name : String) :
    (row.relabel f).get? name = (row.get? name).map (Term.relabel f) :=
  lookup_map_snd (Term.relabel f) name row.bindings

/-- Names stand once, so each binding is the one that is found under its name. -/
theorem get?_eq_some_iff {row : Solution} {name : String} {value : Term} :
    row.get? name = some value ↔ (name, value) ∈ row.bindings :=
  row.increasing.lookup_eq_some_iff

theorem mem_names_of_get? {row : Solution} {name : String} {value : Term}
    (h : row.get? name = some value) : name ∈ row.names :=
  List.mem_map.mpr ⟨_, get?_eq_some_iff.mp h, rfl⟩

theorem get?_eq_none {row : Solution} {name : String} (h : name ∉ row.names) :
    row.get? name = none := by
  cases hget : row.get? name with
  | none => rfl
  | some value => exact absurd (mem_names_of_get? hget) h

theorem mem_labels_iff {row : Solution} {l : String} :
    l ∈ row.labels ↔ ∃ name, row.get? name = some (.blank l) := by
  simp only [labels, List.mem_filterMap, Term.label?_eq_some]
  constructor
  · rintro ⟨⟨name, value⟩, hmem, rfl⟩
    exact ⟨name, get?_eq_some_iff.mpr hmem⟩
  · rintro ⟨name, h⟩
    exact ⟨_, get?_eq_some_iff.mp h, rfl⟩

/-- Solutions that bind every variable to the same term are equal. -/
theorem ext_get? {row other : Solution} (h : ∀ name, row.get? name = other.get? name) :
    row = other := by
  have hmem : ∀ b, b ∈ row.bindings ↔ b ∈ other.bindings := by
    rintro ⟨name, value⟩
    rw [← get?_eq_some_iff, ← get?_eq_some_iff, h]
  have heq : row.bindings = other.bindings :=
    eq_of_mem_iff_of_increasing row.increasing other.increasing hmem
  cases row
  cases other
  cases heq
  rfl

theorem relabel_relabel (f g : String → String) (row : Solution) :
    (row.relabel f).relabel g = row.relabel (g ∘ f) := by
  apply ext_get?
  intro name
  cases h : row.get? name <;> simp [h, Term.relabel_relabel]

theorem relabel_congr {f g : String → String} {row : Solution}
    (h : ∀ l ∈ row.labels, f l = g l) : row.relabel f = row.relabel g := by
  apply ext_get?
  intro name
  cases hget : row.get? name with
  | none => simp [hget]
  | some t =>
    simp only [get?_relabel, hget, Option.map_some]
    refine congrArg some (Term.relabel_congr fun l hl => h l ?_)
    exact mem_labels_iff.mpr ⟨name, by rw [hget, Term.label?_eq_some.mp hl]⟩

theorem relabel_eq_self {f : String → String} {row : Solution}
    (h : ∀ l ∈ row.labels, f l = l) : row.relabel f = row := by
  rw [relabel_congr (g := id) h]
  apply ext_get?
  intro name
  cases hget : row.get? name with
  | none => simp [hget]
  | some t => simp [hget, Term.relabel_eq_self]

theorem eq_relabel_of_relabel_eq {f g rename : String → String} {row other : Solution}
    (h : row.relabel f = other.relabel g)
    (unique : ∀ l ∈ row.labels, ∀ m ∈ other.labels, g m = f l → m = rename l) :
    other = row.relabel rename := by
  apply ext_get?
  intro name
  have hname : (row.get? name).map (Term.relabel f) = (other.get? name).map (Term.relabel g) := by
    rw [← get?_relabel, ← get?_relabel, h]
  rw [get?_relabel]
  cases hr : row.get? name with
  | none =>
    rw [hr] at hname
    exact Option.map_eq_none_iff.mp hname.symm
  | some t =>
    rw [hr] at hname
    obtain ⟨u, hu, heq⟩ := Option.map_eq_some_iff.mp hname.symm
    rw [hu]
    rcases Term.relabel_eq_relabel heq with ⟨m, l, rfl, rfl, htag⟩ | ⟨hnone, rfl⟩
    · have hl : l ∈ row.labels := mem_labels_iff.mpr ⟨name, hr⟩
      have hm : m ∈ other.labels := mem_labels_iff.mpr ⟨name, hu⟩
      rw [unique l hl m hm htag]
      rfl
    · simp [Term.relabel_eq_self, hnone]

end Solution

namespace Triple

/-- The triple with its blank nodes renamed. -/
def relabel (f : String → String) (t : Triple) : Triple :=
  ⟨t.subject.relabel f, t.predicate, t.object.relabel f⟩

/-- The labels of a triple in the order of its text. -/
def labels (t : Triple) : List String := t.subject.label?.toList ++ t.object.label?.toList

theorem mem_labels {t : Triple} {l : String} :
    l ∈ t.labels ↔ t.subject.label? = some l ∨ t.object.label? = some l := by
  simp [labels]

@[simp] theorem labels_relabel (f : String → String) (t : Triple) :
    (t.relabel f).labels = t.labels.map f := by
  simp [labels, relabel, Option.toList_map]

theorem relabel_relabel (f g : String → String) (t : Triple) :
    (t.relabel f).relabel g = t.relabel (g ∘ f) := by
  simp only [relabel, Term.relabel_relabel]

theorem relabel_congr {f g : String → String} {t : Triple} (h : ∀ l ∈ t.labels, f l = g l) :
    t.relabel f = t.relabel g := by
  have hsubject : t.subject.relabel f = t.subject.relabel g :=
    Term.relabel_congr fun l hl => h l (mem_labels.mpr (Or.inl hl))
  have hobject : t.object.relabel f = t.object.relabel g :=
    Term.relabel_congr fun l hl => h l (mem_labels.mpr (Or.inr hl))
  rw [relabel, relabel, hsubject, hobject]

theorem relabel_id (t : Triple) : t.relabel id = t := by
  have kept : ∀ u : Term, u.relabel id = u := fun u => Term.relabel_eq_self fun _ _ => rfl
  rw [relabel, kept, kept]

theorem eq_of_relabel_eq {f : String → String} {t u : Triple}
    (inj : ∀ l ∈ t.labels, ∀ m ∈ u.labels, f l = f m → l = m) (h : t.relabel f = u.relabel f) :
    t = u := by
  obtain ⟨hsubject, hpredicate, hobject⟩ := mk.inj h
  have subject : t.subject = u.subject := Term.eq_of_relabel_eq (fun l m hl hm =>
    inj l (mem_labels.mpr (Or.inl hl)) m (mem_labels.mpr (Or.inl hm))) hsubject
  have object : t.object = u.object := Term.eq_of_relabel_eq (fun l m hl hm =>
    inj l (mem_labels.mpr (Or.inr hl)) m (mem_labels.mpr (Or.inr hm))) hobject
  cases t
  cases u
  cases subject
  cases hpredicate
  cases object
  rfl

end Triple

/-- The label that stands for a place, behind a mark. -/
def placeLabel (mark : Char) (seen : Seen) (label : String) : String :=
  String.ofList (mark :: Nat.toDigits 10 (seen.idxOf label))

theorem placeLabel_inj {mark : Char} {seen others : Seen} {l m : String} :
    placeLabel mark seen l = placeLabel mark others m ↔ seen.idxOf l = others.idxOf m := by
  constructor
  · intro h
    have hdigits : Nat.toDigits 10 (seen.idxOf l) = Nat.toDigits 10 (others.idxOf m) :=
      (List.cons.inj (String.ofList_injective h)).2
    rw [← Nat.ofDigitChars_ten_toDigits (n := seen.idxOf l), hdigits,
      Nat.ofDigitChars_ten_toDigits]
  · intro h
    rw [placeLabel, placeLabel, h]

theorem renderNumbered_snd (mark : Char) (seen : Seen) (t : Term) :
    (renderNumbered mark seen t).2 = declareAll seen t.label?.toList := by
  cases t with
  | blank l => exact number_snd seen l
  | iri _ => rfl
  | literal _ => rfl

theorem renderNumbered_fst {mark : Char} {seen final : Seen} {t : Term}
    (h : declareAll seen t.label?.toList <+: final) :
    (renderNumbered mark seen t).1 = (t.relabel (placeLabel mark final)).render := by
  cases t with
  | blank l =>
    have hplace : (seen.number l).1 = final.idxOf l := number_fst_of_extended h
    simp only [renderNumbered, numbered, hplace, Term.relabel, Term.render, placeLabel,
      String.toList_ofList]
  | iri _ => rfl
  | literal _ => rfl

/-- Labels in the order in which the items show them, the items in turn. -/
def labelsBy {α : Type} (order : α → List String) (items : List α) : List String :=
  items.flatMap order

section Numbering

variable {α : Type} {order : α → List String} {relabel : (String → String) → α → α} {mark : Char}
  {items others : List α}

theorem labelsBy_relabel (equivariant : ∀ f a, order (relabel f a) = (order a).map f)
    (f : String → String) :
    labelsBy order (items.map (relabel f)) = (labelsBy order items).map f := by
  simp only [labelsBy, List.flatMap_map, List.map_flatMap]
  exact List.flatMap_congr fun a _ => equivariant f a

/-- Items whose numbered forms are among those of the others have no label without a partner. -/
theorem exists_partner (equivariant : ∀ f a, order (relabel f a) = (order a).map f)
    (among : ∀ a ∈ items, relabel (placeLabel mark (firstSeen (labelsBy order items))) a ∈
      others.map (relabel (placeLabel mark (firstSeen (labelsBy order others))))) :
    ∀ l ∈ labelsBy order items, ∃ m ∈ labelsBy order others,
      rank (labelsBy order others) m = rank (labelsBy order items) l := by
  intro l hl
  obtain ⟨a, ha, hla⟩ := List.mem_flatMap.mp hl
  obtain ⟨b, hb, heq⟩ := List.mem_map.mp (among a ha)
  have hplace : placeLabel mark (firstSeen (labelsBy order items)) l ∈
      (order b).map (placeLabel mark (firstSeen (labelsBy order others))) := by
    rw [← equivariant, heq, equivariant]
    exact List.mem_map_of_mem hla
  obtain ⟨m, hm, htag⟩ := List.mem_map.mp hplace
  exact ⟨m, List.mem_flatMap.mpr ⟨b, hb, hm⟩, placeLabel_inj.mp htag⟩

/-- Items with equal numbered forms differ by a renaming, when an item is told by its renamed form and
its labels. -/
theorem exists_renaming_of_numbered (equivariant : ∀ f a, order (relabel f a) = (order a).map f)
    (told : ∀ a ∈ items, ∀ b ∈ others, ∀ f g rename : String → String, relabel f a = relabel g b →
      (∀ l ∈ order a, ∀ m ∈ order b, g m = f l → m = rename l) → b = relabel rename a)
    (same : items.map (relabel (placeLabel mark (firstSeen (labelsBy order items)))) =
      others.map (relabel (placeLabel mark (firstSeen (labelsBy order others))))) :
    ∃ f : String → String, Set.InjOn f {l | l ∈ labelsBy order items} ∧
      others = items.map (relabel f) := by
  have among : ∀ a ∈ items, relabel (placeLabel mark (firstSeen (labelsBy order items))) a ∈
      others.map (relabel (placeLabel mark (firstSeen (labelsBy order others)))) := by
    intro a ha
    rw [← same]
    exact List.mem_map_of_mem ha
  obtain ⟨f, inj, unique⟩ := exists_renaming (exists_partner equivariant among)
  refine ⟨f, inj, eq_map_of_map_eq same fun a ha b hb heq => ?_⟩
  apply told a ha b hb _ _ f heq
  intro l hl m hm htag
  exact unique l (List.mem_flatMap.mpr ⟨a, ha, hl⟩) m (List.mem_flatMap.mpr ⟨b, hb, hm⟩)
    (placeLabel_inj.mp htag)

end Numbering

/-- Numbered forms are equal exactly for solutions that are renamings of each other. -/
theorem numbered_rows_eq_iff (mark : Char) (order : Solution → List String)
    (rows others : List Solution)
    (complete : ∀ r, r ∈ rows ∨ r ∈ others → ∀ l, l ∈ order r ↔ l ∈ r.labels)
    (equivariant : ∀ f r, order (Solution.relabel f r) = (order r).map f) :
    rows.map (Solution.relabel (placeLabel mark (firstSeen (labelsBy order rows)))) =
        others.map (Solution.relabel (placeLabel mark (firstSeen (labelsBy order others)))) ↔
      ∃ f : String → String, Set.InjOn f {l | l ∈ labelsBy order rows} ∧
        others = rows.map (Solution.relabel f) := by
  constructor
  · intro same
    refine exists_renaming_of_numbered equivariant (fun r hr o ho f g rename heq unique => ?_) same
    apply Solution.eq_relabel_of_relabel_eq heq
    intro l hl m hm htag
    exact unique l ((complete r (Or.inl hr) l).mpr hl) m ((complete o (Or.inr ho) m).mpr hm) htag
  · rintro ⟨f, inj, rfl⟩
    rw [List.map_map]
    apply List.map_congr_left
    intro r hr
    rw [Function.comp_apply, Solution.relabel_relabel, labelsBy_relabel equivariant]
    apply Solution.relabel_congr
    intro l hl
    have hmem : l ∈ labelsBy order rows :=
      List.mem_flatMap.mpr ⟨r, hr, (complete r (Or.inl hr) l).mpr hl⟩
    exact placeLabel_inj.mpr (rank_map inj hmem).symm

end SparqlConformance
