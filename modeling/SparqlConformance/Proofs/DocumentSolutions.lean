import SparqlConformance.Answers.ResultsDocument
import SparqlConformance.Proofs.MemberLists
import SparqlConformance.Proofs.Renaming
/-!
# Solutions of documents

Solutions of a document in their canonical form. Masks hide the labels from the order, and numbers are given
along the arranged solutions, so neither other labels nor a second pass change the form.
-/
namespace SparqlConformance.ResultsDocument

section Terms

/-- The label of a blank node that has one. -/
def label? (term : JsonMembers) : Option String :=
  match isBlank term, member? "value" term with
  | true, some (.string label) => some label
  | _, _ => none

/-- The term with another label, if it has a label. -/
def relabel (f : String → String) (term : JsonMembers) : JsonMembers :=
  match label? term with
  | some label => Members.insert "value" (.string (f label)) term
  | none => term

variable {f g : String → String} {term : JsonMembers} {label : String}

theorem label?_eq_some_iff :
    label? term = some label ↔ isBlank term = true ∧ member? "value" term = some (.string label) := by
  unfold label?
  split
  · rename_i blank value
    simp [blank, value]
  · rename_i other
    constructor
    · intro h
      cases h
    · rintro ⟨blank, value⟩
      exact (other _ blank value).elim

theorem member?_insert (name other : String) (value : Json) (members : JsonMembers) :
    member? other (Members.insert name value members) =
      if other = name then some value else member? other members :=
  Members.lookup_insert name other value members

theorem typeOf?_insert {name : String} (apart : "type" ≠ name) (value : Json) (term : JsonMembers) :
    typeOf? (Members.insert name value term) = typeOf? term := by
  rw [typeOf?, typeOf?, member?_insert, if_neg apart]

theorem relabel_of_label? (h : label? term = some label) :
    relabel f term = Members.insert "value" (.string (f label)) term := by
  rw [relabel, h]

theorem relabel_of_none (h : label? term = none) : relabel f term = term := by
  rw [relabel, h]

theorem typeOf?_relabel (f : String → String) (term : JsonMembers) :
    typeOf? (relabel f term) = typeOf? term := by
  cases h : label? term with
  | none => rw [relabel_of_none h]
  | some label => rw [relabel_of_label? h, typeOf?_insert (by decide)]

@[simp] theorem label?_relabel (f : String → String) (term : JsonMembers) :
    label? (relabel f term) = (label? term).map f := by
  cases h : label? term with
  | none => rw [relabel_of_none h, h, Option.map_none]
  | some label =>
    obtain ⟨blank, -⟩ := label?_eq_some_iff.mp h
    refine label?_eq_some_iff.mpr ⟨?_, ?_⟩
    · rwa [isBlank, typeOf?_relabel]
    · rw [relabel_of_label? h, member?_insert, if_pos rfl]

theorem relabel_relabel (f g : String → String) (term : JsonMembers) :
    relabel g (relabel f term) = relabel (g ∘ f) term := by
  cases h : label? term with
  | none => rw [relabel_of_none h, relabel_of_none h, relabel_of_none h]
  | some label =>
    have renamed : label? (relabel f term) = some (f label) := by rw [label?_relabel, h, Option.map_some]
    rw [relabel_of_label? renamed, relabel_of_label? h, relabel_of_label? h, Members.insert_insert]
    rfl

theorem relabel_comp_relabel (f g : String → String) : relabel g ∘ relabel f = relabel (g ∘ f) :=
  funext (relabel_relabel f g)

theorem relabel_congr (same : ∀ l, label? term = some l → f l = g l) : relabel f term = relabel g term := by
  cases h : label? term with
  | none => rw [relabel_of_none h, relabel_of_none h]
  | some label => rw [relabel_of_label? h, relabel_of_label? h, same label h]

/-- Labels do not show behind the mask. -/
theorem masked_relabel (f : String → String) (term : JsonMembers) :
    masked (relabel f term) = masked term := by
  cases h : label? term with
  | none => rw [relabel_of_none h]
  | some label =>
    obtain ⟨blank, -⟩ := label?_eq_some_iff.mp h
    have blank' : isBlank (relabel f term) = true := by rwa [isBlank, typeOf?_relabel]
    rw [masked, masked, if_pos blank, if_pos blank', relabel_of_label? h, Members.insert_insert]

theorem typeOf?_plainType (term : JsonMembers) : typeOf? (plainType term) ≠ some "typed-literal" := by
  unfold plainType
  split
  · rw [typeOf?, member?_insert, if_pos rfl]
    decide
  · assumption

theorem plainType_of_ne (h : typeOf? term ≠ some "typed-literal") : plainType term = term := if_neg h

theorem isBlank_plainType (term : JsonMembers) : isBlank (plainType term) = isBlank term := by
  by_cases h : typeOf? term = some "typed-literal"
  · rw [plainType, if_pos h, isBlank, isBlank, h, typeOf?, member?_insert, if_pos rfl]
    rfl
  · rw [plainType_of_ne h]

@[simp] theorem label?_plainType (term : JsonMembers) : label? (plainType term) = label? term := by
  refine Option.ext fun label => ?_
  rw [label?_eq_some_iff, label?_eq_some_iff, isBlank_plainType]
  refine and_congr_right fun _ => ?_
  unfold plainType
  split
  · rw [member?_insert, if_neg (by decide)]
  · rfl

theorem plainType_relabel (f : String → String) (term : JsonMembers) :
    plainType (relabel f term) = relabel f (plainType term) := by
  cases h : label? term with
  | none => rw [relabel_of_none h, relabel_of_none (by rw [label?_plainType, h])]
  | some label =>
    obtain ⟨blank, -⟩ := label?_eq_some_iff.mp h
    have untyped : typeOf? term ≠ some "typed-literal" := by
      intro typed
      rw [isBlank, typed] at blank
      cases blank
    rw [plainType_of_ne untyped, plainType_of_ne (by rwa [typeOf?_relabel])]

end Terms

section Cells

/-- Changes the term of a cell. -/
def mapCell (f : JsonMembers → JsonMembers) : String × Json → String × Json
  | (name, .object term) => (name, .object (f term))
  | cell => cell

/-- The label in a cell. -/
def cellLabel? : String × Json → Option String
  | (_, .object term) => label? term
  | _ => none

/-- The labels of a solution in the order of its cells. -/
def solutionLabels : Json → List String
  | .object cells => cells.filterMap cellLabel?
  | _ => []

variable {f g : JsonMembers → JsonMembers}

theorem mapTerms_object (f : JsonMembers → JsonMembers) (cells : JsonMembers) :
    mapTerms f (.object cells) = .object (cells.map (mapCell f)) := by
  rw [mapTerms]
  refine congrArg Json.object (List.map_congr_left fun cell _ => ?_)
  obtain ⟨name, value⟩ := cell
  cases value <;> rfl

theorem mapTerms_mapTerms (f g : JsonMembers → JsonMembers) (solution : Json) :
    mapTerms g (mapTerms f solution) = mapTerms (g ∘ f) solution := by
  cases solution with
  | object cells =>
    rw [mapTerms_object, mapTerms_object, mapTerms_object, List.map_map]
    refine congrArg Json.object (List.map_congr_left fun cell _ => ?_)
    obtain ⟨name, value⟩ := cell
    cases value <;> rfl
  | _ => rfl

theorem mapTerms_congr {solution : Json}
    (same : ∀ cells, solution = .object cells → ∀ name term, (name, .object term) ∈ cells → f term = g term) :
    mapTerms f solution = mapTerms g solution := by
  cases solution with
  | object cells =>
    rw [mapTerms_object, mapTerms_object]
    refine congrArg Json.object (List.map_congr_left fun cell hcell => ?_)
    obtain ⟨name, value⟩ := cell
    cases value with
    | object term => exact congrArg (fun t => (name, Json.object t)) (same cells rfl name term hcell)
    | _ => rfl
  | _ => rfl

theorem solutionLabels_mapTerms {h : String → String}
    (labels : ∀ term, label? (f term) = (label? term).map h) (solution : Json) :
    solutionLabels (mapTerms f solution) = (solutionLabels solution).map h := by
  cases solution with
  | object cells =>
    rw [mapTerms_object, solutionLabels, solutionLabels, List.filterMap_map, List.map_filterMap]
    refine List.filterMap_congr fun cell _ => ?_
    obtain ⟨name, value⟩ := cell
    cases value with
    | object term => exact labels term
    | _ => rfl
  | _ => rfl

theorem mapTerms_relabel_congr {f g : String → String} {solution : Json}
    (same : ∀ l ∈ solutionLabels solution, f l = g l) :
    mapTerms (relabel f) solution = mapTerms (relabel g) solution := by
  refine mapTerms_congr fun cells hcells name term hterm => relabel_congr fun l hl => same l ?_
  rw [hcells, solutionLabels]
  exact List.mem_filterMap.mpr ⟨_, hterm, hl⟩

end Cells

section Numbering

theorem placeLabel_eq (seen : Seen) (label : String) :
    "b" ++ toString (seen.idxOf label) = placeLabel 'b' seen label := by
  rw [placeLabel, Nat.toString_eq_repr, Nat.repr_eq_ofList_toDigits, ← String.toList_inj,
    String.toList_append, String.toList_ofList, String.toList_ofList, String.toList_ofList]
  rfl

theorem relabelTerm_of_label? {term : JsonMembers} {label : String} (h : label? term = some label)
    (seen : Seen) :
    relabelTerm seen term =
      (Members.insert "value" (.string ("b" ++ toString (seen.number label).1)) term,
        (seen.number label).2) := by
  obtain ⟨blank, value⟩ := label?_eq_some_iff.mp h
  simp only [relabelTerm, blank, value]

theorem relabelTerm_of_none {term : JsonMembers} (h : label? term = none) (seen : Seen) :
    relabelTerm seen term = (term, seen) := by
  unfold relabelTerm
  split
  · rename_i label blank value
    rw [label?_eq_some_iff.mpr ⟨blank, value⟩] at h
    cases h
  · rfl

theorem relabelTerm_snd (seen : Seen) (term : JsonMembers) :
    (relabelTerm seen term).2 = declareAll seen (label? term).toList := by
  cases h : label? term with
  | none => rw [relabelTerm_of_none h]; rfl
  | some label => rw [relabelTerm_of_label? h]; exact number_snd seen label

theorem relabelTerm_fst {seen final : Seen} {term : JsonMembers}
    (h : declareAll seen (label? term).toList <+: final) :
    (relabelTerm seen term).1 = relabel (placeLabel 'b' final) term := by
  cases hlabel : label? term with
  | none => rw [relabelTerm_of_none hlabel, relabel_of_none hlabel]
  | some label =>
    rw [hlabel] at h
    rw [relabelTerm_of_label? hlabel, relabel_of_label? hlabel, ← placeLabel_eq, number_fst_of_extended h]

theorem relabelCells_snd (seen : Seen) (cells : JsonMembers) :
    (relabelCells seen cells).2 = declareAll seen (cells.filterMap cellLabel?) := by
  induction cells generalizing seen with
  | nil => rfl
  | cons cell cells ih =>
    obtain ⟨name, value⟩ := cell
    cases value with
    | object term =>
      have labels : ((name, .object term) :: cells).filterMap cellLabel? =
          (label? term).toList ++ cells.filterMap cellLabel? := by
        rw [List.filterMap_cons, cellLabel?]
        cases label? term <;> rfl
      rw [labels, declareAll_append, ← relabelTerm_snd]
      exact ih _
    | _ => exact ih seen

theorem relabelCells_fst {seen final : Seen} {cells : JsonMembers}
    (h : declareAll seen (cells.filterMap cellLabel?) <+: final) :
    (relabelCells seen cells).1 = cells.map (mapCell (relabel (placeLabel 'b' final))) := by
  induction cells generalizing seen with
  | nil => rfl
  | cons cell cells ih =>
    obtain ⟨name, value⟩ := cell
    cases value with
    | object term =>
      have labels : ((name, .object term) :: cells).filterMap cellLabel? =
          (label? term).toList ++ cells.filterMap cellLabel? := by
        rw [List.filterMap_cons, cellLabel?]
        cases label? term <;> rfl
      rw [labels, declareAll_append] at h
      have hhead := relabelTerm_fst ((declareAll_extends _ _).trans h)
      have htail : (relabelCells (relabelTerm seen term).2 cells).1 = _ :=
        ih (by rw [relabelTerm_snd]; exact h)
      rw [List.map_cons, mapCell, ← hhead, ← htail]
      rfl
    | _ => exact congrArg (_ :: ·) (ih h)

/-- Numbering solutions is a renaming that is fixed once all of them are known. -/
theorem relabelSolutions_eq_map {seen final : Seen} {solutions : List Json}
    (h : declareAll seen (labelsBy solutionLabels solutions) <+: final) :
    relabelSolutions seen solutions = solutions.map (mapTerms (relabel (placeLabel 'b' final))) := by
  induction solutions generalizing seen with
  | nil => rfl
  | cons solution solutions ih =>
    rw [labelsBy, List.flatMap_cons, declareAll_append] at h
    cases solution with
    | object cells =>
      have hhead := relabelCells_fst ((declareAll_extends _ _).trans h)
      have htail : relabelSolutions (relabelCells seen cells).2 solutions = _ :=
        ih (by rw [relabelCells_snd]; exact h)
      rw [List.map_cons, mapTerms_object, ← hhead, ← htail]
      rfl
    | _ => exact congrArg (_ :: ·) (ih h)

/-- The number of a label along the solutions. -/
def solutionNumber (solutions : List Json) (label : String) : String :=
  placeLabel 'b' (firstSeen (labelsBy solutionLabels solutions)) label

theorem relabelSolutions_nil (solutions : List Json) :
    relabelSolutions [] solutions = solutions.map (mapTerms (relabel (solutionNumber solutions))) :=
  relabelSolutions_eq_map (List.prefix_refl _)

theorem solutionNumber_injOn (solutions : List Json) :
    Set.InjOn (solutionNumber solutions) {l | l ∈ labelsBy solutionLabels solutions} :=
  fun _ ha _ _ heq => rank_inj ha (placeLabel_inj.mp heq)

/-- Numbering forgets how the labels are called. -/
theorem relabelSolutions_relabel {f : String → String} {solutions : List Json}
    (inj : Set.InjOn f {l | l ∈ labelsBy solutionLabels solutions}) :
    relabelSolutions [] (solutions.map (mapTerms (relabel f))) = relabelSolutions [] solutions := by
  have labels : labelsBy solutionLabels (solutions.map (mapTerms (relabel f))) =
      (labelsBy solutionLabels solutions).map f := by
    simp only [labelsBy, List.flatMap_map, List.map_flatMap]
    exact List.flatMap_congr fun s _ => solutionLabels_mapTerms (label?_relabel f) s
  rw [relabelSolutions_nil, relabelSolutions_nil, List.map_map]
  refine List.map_congr_left fun s hs => ?_
  rw [Function.comp_apply, mapTerms_mapTerms, relabel_comp_relabel]
  refine mapTerms_relabel_congr fun l hl => placeLabel_inj.mpr ?_
  rw [labels]
  exact rank_map inj (List.mem_flatMap.mpr ⟨s, hs, hl⟩)

end Numbering

section Arranging

variable (ordered : Bool) (solutions : List Json)

/-- Solutions with one type of literals, and in the order of their keys where the order is free. -/
def arranged : List Json :=
  let plain := solutions.map (mapTerms plainType)
  if ordered then plain else plain.mergeSort fun a b => decide (sortKey a ≤ sortKey b)

theorem normalize_eq : normalize ordered solutions = relabelSolutions [] (arranged ordered solutions) := by
  unfold normalize arranged
  dsimp only
  rw [mergeSort_keyed]

theorem normalize_congr {solutions others : List Json}
    (same : solutions.map (mapTerms plainType) = others.map (mapTerms plainType)) :
    normalize ordered solutions = normalize ordered others := by
  rw [normalize_eq, normalize_eq, arranged, arranged, same]

theorem arranged_perm : (arranged ordered solutions).Perm (solutions.map (mapTerms plainType)) := by
  cases ordered with
  | true => exact List.Perm.refl _
  | false => exact List.mergeSort_perm _ _

theorem mem_labels_arranged (l : String) :
    l ∈ labelsBy solutionLabels (arranged ordered solutions) ↔ l ∈ labelsBy solutionLabels solutions := by
  have kept : ∀ s, solutionLabels (mapTerms plainType s) = solutionLabels s := fun s =>
    (solutionLabels_mapTerms (h := id) (by simp) s).trans (List.map_id _)
  simp only [labelsBy, List.mem_flatMap, (arranged_perm ordered solutions).mem_iff, List.mem_map]
  constructor
  · rintro ⟨_, ⟨s, hs, rfl⟩, hl⟩
    exact ⟨s, hs, kept s ▸ hl⟩
  · rintro ⟨s, hs, hl⟩
    exact ⟨_, ⟨s, hs, rfl⟩, (kept s).symm ▸ hl⟩

theorem sortKey_relabel (f : String → String) (solution : Json) :
    sortKey (mapTerms (relabel f) solution) = sortKey solution := by
  have same : masked ∘ relabel f = masked := funext (masked_relabel f)
  rw [sortKey, sortKey, mapTerms_mapTerms, same]

/-- What changes neither the keys nor the types of literals leaves solutions in their places. -/
theorem arranged_map {f : Json → Json} (plain : ∀ s, mapTerms plainType (f s) = f (mapTerms plainType s))
    (keys : ∀ s, sortKey (f s) = sortKey s) :
    arranged ordered (solutions.map f) = (arranged ordered solutions).map f := by
  have swap : (solutions.map f).map (mapTerms plainType) = (solutions.map (mapTerms plainType)).map f := by
    rw [List.map_map, List.map_map]
    exact List.map_congr_left fun s _ => plain s
  unfold arranged
  dsimp only
  rw [swap]
  cases ordered with
  | true => rfl
  | false =>
    refine (List.map_mergeSort fun a _ b _ => ?_).symm
    rw [keys, keys]

theorem arranged_relabel (f : String → String) :
    arranged ordered (solutions.map (mapTerms (relabel f))) =
      (arranged ordered solutions).map (mapTerms (relabel f)) := by
  have swap : plainType ∘ relabel f = relabel f ∘ plainType := funext (plainType_relabel f)
  refine arranged_map ordered solutions (fun s => ?_) (sortKey_relabel f)
  rw [mapTerms_mapTerms, mapTerms_mapTerms, swap]

theorem arranged_arranged : arranged ordered (arranged ordered solutions) = arranged ordered solutions := by
  have once : plainType ∘ plainType = plainType :=
    funext fun term => plainType_of_ne (typeOf?_plainType term)
  have plain : (arranged ordered solutions).map (mapTerms plainType) = arranged ordered solutions := by
    refine (List.map_congr_left fun s hs => ?_).trans (List.map_id _)
    obtain ⟨t, _, rfl⟩ := List.mem_map.mp ((arranged_perm ordered solutions).mem_iff.mp hs)
    rw [mapTerms_mapTerms, once, id]
  rw [arranged, plain]
  cases ordered with
  | true => rfl
  | false => exact List.mergeSort_of_pairwise ((sorted_mergeSort sortKey _).imp decide_eq_true)

/-- The canonical form does not show how labels are called. -/
theorem normalize_relabel {f : String → String}
    (inj : Set.InjOn f {l | l ∈ labelsBy solutionLabels solutions}) :
    normalize ordered (solutions.map (mapTerms (relabel f))) = normalize ordered solutions := by
  rw [normalize_eq, normalize_eq, arranged_relabel]
  exact relabelSolutions_relabel (inj.mono fun l hl => (mem_labels_arranged ordered solutions l).mp hl)

/-- A second pass changes nothing: its labels are the first one's under other names. -/
theorem normalize_normalize : normalize ordered (normalize ordered solutions) = normalize ordered solutions := by
  have first : normalize ordered solutions = (arranged ordered solutions).map
      (mapTerms (relabel (solutionNumber (arranged ordered solutions)))) := by
    rw [normalize_eq, relabelSolutions_nil]
  calc normalize ordered (normalize ordered solutions)
      = normalize ordered (arranged ordered solutions) := by
        rw [first]
        exact normalize_relabel ordered _ (solutionNumber_injOn _)
    _ = normalize ordered solutions := by rw [normalize_eq, normalize_eq, arranged_arranged]

theorem isEmpty_normalize : (normalize ordered solutions).isEmpty = solutions.isEmpty := by
  have length : (normalize ordered solutions).length = solutions.length := by
    rw [normalize_eq, relabelSolutions_nil, List.length_map, (arranged_perm ordered solutions).length_eq,
      List.length_map]
  rw [Bool.eq_iff_iff, List.isEmpty_iff_length_eq_zero, List.isEmpty_iff_length_eq_zero, length]

end Arranging

end SparqlConformance.ResultsDocument
