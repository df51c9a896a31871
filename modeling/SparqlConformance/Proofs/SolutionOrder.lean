import SparqlConformance.Proofs.JsonTextEquality
import SparqlConformance.Proofs.NormalDocuments
/-!
# Order of solutions

What the order of the solutions does to a document in which it does not count. Solutions are sorted by a key
that masks labels, so solutions with one key keep the order they came in, and labels are numbered in that
order. Two orders give one document exactly when some renaming of labels pairs the solutions of each key in
the orders they came in.
-/
namespace SparqlConformance.ResultsDocument

section Renaming

variable {f g rename : String → String}

/-- A term is told by its renamed form and its label. -/
theorem eq_relabel_of_relabel_eq {term other : JsonMembers} (increasing : Increasing other)
    (h : relabel f term = relabel g other)
    (unique : ∀ l, label? term = some l → ∀ m, label? other = some m → g m = f l → m = rename l) :
    other = relabel rename term := by
  have labels : (label? term).map f = (label? other).map g := by
    rw [← label?_relabel, h, label?_relabel]
  cases hterm : label? term with
  | none =>
    have hother : label? other = none := by
      rw [hterm] at labels
      exact Option.map_eq_none_iff.mp labels.symm
    rw [relabel_of_none hterm, relabel_of_none hother] at h
    rw [relabel_of_none hterm, h]
  | some l =>
    rw [hterm, Option.map_some] at labels
    obtain ⟨m, hother, same⟩ := Option.map_eq_some_iff.mp labels.symm
    have place := (label?_eq_some_iff.mp hother).2
    rw [relabel_of_label? hterm, relabel_of_label? hother] at h
    calc other = Members.insert "value" (.string m) other := (Members.insert_of_lookup increasing place).symm
      _ = Members.insert "value" (.string m) (Members.insert "value" (.string (f l)) term) := by
        rw [h, Members.insert_insert]
      _ = relabel rename term := by
        rw [Members.insert_insert, relabel_of_label? hterm, unique l hterm m hother same]

/-- The members of the terms of a solution are in order. -/
def HasOrderedTerms (solution : Json) : Prop :=
  ∀ cells, solution = .object cells → ∀ name term, (name, Json.object term) ∈ cells → Increasing term

theorem mapCell_eq (f : JsonMembers → JsonMembers) (cell : String × Json) :
    mapCell f cell = (cell.1, inObject f cell.2) := by
  obtain ⟨name, value⟩ := cell
  cases value <;> rfl

theorem HasOrderedTerms.mapTerms {solution : Json} (ordered : HasOrderedTerms solution)
    {f : JsonMembers → JsonMembers} (keeps : ∀ term, Increasing term → Increasing (f term)) :
    HasOrderedTerms (mapTerms f solution) := by
  cases solution with
  | object cells =>
    intro changed hchanged name term hterm
    rw [mapTerms_object] at hchanged
    obtain rfl := Json.object.inj hchanged
    obtain ⟨⟨name', value⟩, hcell, heq⟩ := List.mem_map.mp hterm
    cases value with
    | object term' =>
      obtain ⟨-, hvalue⟩ := Prod.mk.inj heq
      rw [← Json.object.inj hvalue]
      exact keeps term' (ordered cells rfl name' term' hcell)
    | _ => cases (Prod.mk.inj heq).2
  | _ => exact fun cells h => by cases h

/-- A solution is told by its renamed form and its labels. -/
theorem eq_mapTerms_of_mapTerms_eq {solution other : Json} (ordered : HasOrderedTerms other)
    (h : mapTerms (relabel f) solution = mapTerms (relabel g) other)
    (unique : ∀ l ∈ solutionLabels solution, ∀ m ∈ solutionLabels other, g m = f l → m = rename l) :
    other = mapTerms (relabel rename) solution := by
  cases solution with
  | object cells =>
    cases other with
    | object others =>
      rw [mapTerms_object, mapTerms_object] at h
      rw [mapTerms_object]
      refine congrArg Json.object (eq_map_of_map_eq (Json.object.inj h) fun cell hcell o ho heq => ?_)
      obtain ⟨name, value⟩ := cell
      obtain ⟨name', value'⟩ := o
      rw [mapCell_eq, mapCell_eq] at heq
      rw [mapCell_eq]
      obtain ⟨rfl, hvalue⟩ := Prod.mk.inj heq
      refine Prod.ext rfl ?_
      cases value with
      | object term =>
        cases value' with
        | object term' =>
          refine congrArg Json.object (eq_relabel_of_relabel_eq (ordered others rfl name term' ho)
            (Json.object.inj hvalue) fun l hl m hm => unique l ?_ m ?_)
          · exact List.mem_filterMap.mpr ⟨_, hcell, hl⟩
          · exact List.mem_filterMap.mpr ⟨_, ho, hm⟩
        | _ => cases hvalue
      | _ =>
        cases value' with
        | object term' => cases hvalue
        | _ => exact hvalue.symm
    | _ => cases h
  | _ =>
    cases other with
    | object others => cases h
    | _ => exact h.symm

end Renaming

section Lists

variable {solutions others : List Json}

/-- The solutions of a document, all literals of one type. -/
def plain (solutions : List Json) : List Json := solutions.map (mapTerms plainType)

theorem keyClass_arranged (k : String) :
    keyClass sortKey k (arranged false solutions) = keyClass sortKey k (plain solutions) :=
  keyClass_mergeSort sortKey k (plain solutions)

theorem sorted_arranged : (arranged false solutions).Pairwise fun a b => sortKey a ≤ sortKey b :=
  sorted_mergeSort sortKey (plain solutions)

/-- Two lists of solutions are put into one form exactly when a renaming of labels takes the solutions of each
key, in their order, to those of the other list. -/
theorem normalize_eq_iff (ordered : ∀ s ∈ others, HasOrderedTerms s) :
    normalize false others = normalize false solutions ↔
      ∃ f : String → String, Set.InjOn f {l | l ∈ labelsBy solutionLabels solutions} ∧
        ∀ k, keyClass sortKey k (plain others) =
          (keyClass sortKey k (plain solutions)).map (mapTerms (relabel f)) := by
  have labels : {l | l ∈ labelsBy solutionLabels (arranged false solutions)} =
      {l | l ∈ labelsBy solutionLabels solutions} := Set.ext (mem_labels_arranged false solutions)
  rw [normalize_eq, normalize_eq]
  constructor
  · intro h
    rw [relabelSolutions_nil, relabelSolutions_nil] at h
    have ordered_arranged : ∀ s ∈ arranged false others, HasOrderedTerms s := by
      intro s hs
      obtain ⟨o, ho, rfl⟩ := List.mem_map.mp ((arranged_perm false others).mem_iff.mp hs)
      refine (ordered o ho).mapTerms fun term increasing => ?_
      unfold plainType
      split
      · exact Members.increasing_insert _ _ increasing
      · exact increasing
    -- labels with one number make the renaming, and the classes follow because keys are blind to labels
    obtain ⟨f, inj, renamed⟩ := @exists_renaming_of_numbered Json solutionLabels
      (fun f => mapTerms (relabel f)) 'b' _ _ (fun f s => solutionLabels_mapTerms (label?_relabel f) s)
      (fun s _ o ho f g rename heq unique => eq_mapTerms_of_mapTerms_eq (ordered_arranged o ho) heq unique) h.symm
    rw [labels] at inj
    refine ⟨f, inj, fun k => ?_⟩
    rw [← keyClass_arranged, ← keyClass_arranged, renamed, keyClass, List.filter_map]
    refine congrArg (List.map _) (List.filter_congr fun s _ => ?_)
    rw [Function.comp_apply, sortKey_relabel]
  · rintro ⟨f, inj, classes⟩
    -- a sorted list is told by its classes, so the renaming takes all of one list to the other
    have arranged_classes : ∀ k, (keyClass sortKey k (arranged false others)).map id =
        (keyClass sortKey k (arranged false solutions)).map (mapTerms (relabel f)) := by
      intro k
      rw [keyClass_arranged, keyClass_arranged, List.map_id, classes]
    have both := congrArg (List.map Prod.snd)
      (map_eq_of_keyClasses sorted_arranged sorted_arranged arranged_classes)
    rw [List.map_map, List.map_map] at both
    have renamed : arranged false others = (arranged false solutions).map (mapTerms (relabel f)) :=
      (List.map_id _).symm.trans both
    rw [renamed]
    exact relabelSolutions_relabel (labels ▸ inj)

end Lists

section Representatives

open Json (representative memberRepresentatives)

variable (term : JsonMembers) (solution : Json)

theorem member?_representatives (name : String) :
    member? name (memberRepresentatives term) = (member? name term).map representative := by
  rw [Json.memberRepresentatives_eq_map]
  exact lookup_map_snd representative name term

theorem insert_representatives (name value : String) :
    Members.insert name (.string value) (memberRepresentatives term) =
      memberRepresentatives (Members.insert name (.string value) term) := by
  rw [Json.memberRepresentatives_eq_map, Json.memberRepresentatives_eq_map, Members.map_insert, representative]

/-- Strings are not changed, and nothing else becomes one. -/
theorem string?_representatives (name value : String) :
    member? name (memberRepresentatives term) = some (.string value) ↔
      member? name term = some (.string value) := by
  rw [member?_representatives]
  cases member? name term with
  | none => simp
  | some v => cases v <;> simp [representative]

theorem typeOf?_representatives : typeOf? (memberRepresentatives term) = typeOf? term := by
  have told : ∀ {t : JsonMembers} {s}, typeOf? t = some s ↔ member? "type" t = some (.string s) := by
    intro t s
    unfold typeOf?
    split
    · rename_i heq
      simp [heq]
    · rename_i other
      exact ⟨nofun, fun h => (other _ h).elim⟩
  refine Option.ext fun s => ?_
  rw [told, told, string?_representatives]

theorem isBlank_representatives : isBlank (memberRepresentatives term) = isBlank term := by
  rw [isBlank, isBlank, typeOf?_representatives]

theorem label?_representatives : label? (memberRepresentatives term) = label? term := by
  refine Option.ext fun label => ?_
  rw [label?_eq_some_iff, label?_eq_some_iff, isBlank_representatives, string?_representatives]

theorem relabel_representatives (f : String → String) :
    relabel f (memberRepresentatives term) = memberRepresentatives (relabel f term) := by
  cases h : label? term with
  | none => rw [relabel_of_none h, relabel_of_none (by rw [label?_representatives, h])]
  | some label =>
    rw [relabel_of_label? h, relabel_of_label? (by rw [label?_representatives, h]), insert_representatives]

theorem masked_representatives : masked (memberRepresentatives term) = memberRepresentatives (masked term) := by
  rw [masked, masked, isBlank_representatives]
  split
  · exact insert_representatives term "value" ""
  · rfl

theorem plainType_representatives :
    plainType (memberRepresentatives term) = memberRepresentatives (plainType term) := by
  rw [plainType, plainType, typeOf?_representatives]
  split
  · exact insert_representatives term "type" "literal"
  · rfl

theorem inObject_representative {f : JsonMembers → JsonMembers}
    (terms : ∀ term, f (memberRepresentatives term) = memberRepresentatives (f term)) (value : Json) :
    inObject f value.representative = (inObject f value).representative := by
  cases value with
  | object term => rw [representative, inObject, inObject, representative, terms]
  | _ => rfl

/-- What does not look at numbers may be done before or after numbers are replaced. -/
theorem mapTerms_representative {f : JsonMembers → JsonMembers}
    (terms : ∀ term, f (memberRepresentatives term) = memberRepresentatives (f term)) :
    mapTerms f solution.representative = (mapTerms f solution).representative := by
  cases solution with
  | object cells =>
    rw [representative, mapTerms_object, mapTerms_object, representative, Json.memberRepresentatives_eq_map,
      Json.memberRepresentatives_eq_map, List.map_map, List.map_map]
    refine congrArg Json.object (List.map_congr_left fun cell _ => ?_)
    rw [Function.comp_apply, Function.comp_apply, mapCell_eq, mapCell_eq]
    exact Prod.ext rfl (inObject_representative terms cell.2)
  | _ => rfl

theorem solutionLabels_representative : solutionLabels solution.representative = solutionLabels solution := by
  cases solution with
  | object cells =>
    rw [representative, solutionLabels, solutionLabels, Json.memberRepresentatives_eq_map, List.filterMap_map]
    refine List.filterMap_congr fun cell _ => ?_
    obtain ⟨name, value⟩ := cell
    cases value with
    | object term => exact label?_representatives term
    | _ => rfl
  | _ => rfl

theorem labelsBy_representative (solutions : List Json) :
    labelsBy solutionLabels (solutions.map representative) = labelsBy solutionLabels solutions := by
  rw [labelsBy, labelsBy, List.flatMap_map]
  exact List.flatMap_congr fun s _ => solutionLabels_representative s

theorem sortKey_representative : sortKey solution.representative = sortKey solution := by
  rw [sortKey, sortKey, mapTerms_representative solution masked_representatives, Json.compact_representative]

theorem HasOrderedTerms.representative {solution : Json} (ordered : HasOrderedTerms solution) :
    HasOrderedTerms solution.representative := by
  cases solution with
  | object cells =>
    intro changed hchanged name term hterm
    rw [Json.representative, Json.memberRepresentatives_eq_map] at hchanged
    obtain rfl := Json.object.inj hchanged
    obtain ⟨⟨name', value⟩, hcell, heq⟩ := List.mem_map.mp hterm
    cases value with
    | object term' =>
      obtain ⟨-, hvalue⟩ := Prod.mk.inj heq
      rw [← Json.object.inj hvalue, Json.memberRepresentatives_eq_map]
      exact (ordered cells rfl name' term' hcell).map fun m => rfl
    | _ => cases (Prod.mk.inj heq).2
  | _ => exact fun cells h => by cases h

theorem normalize_representative (ordered : Bool) (solutions : List Json) :
    normalize ordered (solutions.map representative) = (normalize ordered solutions).map representative := by
  have arranged_eq := arranged_map ordered solutions
    (fun s => mapTerms_representative s plainType_representatives) sortKey_representative
  have numbers : solutionNumber ((arranged ordered solutions).map representative) =
      solutionNumber (arranged ordered solutions) :=
    congrArg (fun labels => placeLabel 'b' (firstSeen labels)) (labelsBy_representative _)
  rw [normalize_eq, normalize_eq, arranged_eq, relabelSolutions_nil, relabelSolutions_nil, List.map_map,
    List.map_map, numbers]
  exact List.map_congr_left fun s _ => mapTerms_representative s fun term => relabel_representatives term _

end Representatives

section Texts

variable {root : JsonMembers} {solutions others : List Json}

/-- Values whose members stand in order, at any depth. -/
inductive IsOrdered : Json → Prop
  | null : IsOrdered .null
  | bool (b : Bool) : IsOrdered (.bool b)
  | string (s : String) : IsOrdered (.string s)
  | number (n : JsonNumber) : IsOrdered (.number n)
  | array {items : List Json} (each : ∀ v ∈ items, IsOrdered v) : IsOrdered (.array items)
  | object {members : JsonMembers} (increasing : Increasing members) (each : ∀ m ∈ members, IsOrdered m.2) :
      IsOrdered (.object members)

theorem isOrdered_of_value? {depth : Nat} {s : Spelling} {v : Json} (h : s.value? depth = some v) :
    IsOrdered v := by
  -- the induction is on the depth that is left, which falls at every array and object
  induction depth using Nat.strongRecOn generalizing s v with
  | ind depth ih =>
    cases s with
    | null =>
      obtain rfl := Option.some.inj h
      exact .null
    | bool b =>
      obtain rfl := Option.some.inj h
      exact .bool b
    | string text =>
      obtain rfl := Option.some.inj h
      exact .string text
    | number text =>
      obtain ⟨n, -, rfl⟩ := Option.map_eq_some_iff.mp h
      exact .number n
    | array items =>
      cases depth with
      | zero => cases h
      | succ depth =>
        obtain ⟨vs, hvs, rfl⟩ := Option.map_eq_some_iff.mp h
        refine .array fun v hv => ?_
        obtain ⟨s, -, value⟩ := exists_of_mem_forall₂ (Spelling.itemValues?_eq_some_iff.mp hvs) hv
        exact ih depth (Nat.lt_succ_self _) value
    | object members =>
      cases depth with
      | zero => cases h
      | succ depth =>
        obtain ⟨pairs, hpairs, rfl⟩ := Option.map_eq_some_iff.mp h
        refine .object (Members.increasing_ofPairs pairs) fun m hm => ?_
        obtain ⟨s, -, -, value⟩ := exists_of_mem_forall₂
          (Spelling.memberValues?_eq_some_iff.mp hpairs) (Members.mem_of_mem_ofPairs hm)
        exact ih depth (Nat.lt_succ_self _) value

theorem IsOrdered.member {members : JsonMembers} (ordered : IsOrdered (.object members)) {name : String}
    {v : Json} (h : member? name members = some v) : IsOrdered v := by
  cases ordered with
  | object _ each => exact each (name, v) (mem_of_lookup h)

theorem IsOrdered.hasOrderedTerms {v : Json} (ordered : IsOrdered v) : HasOrderedTerms v := by
  rintro cells rfl name term hterm
  cases ordered with
  | object _ each =>
    cases each _ hterm with
    | object increasing _ => exact increasing

/-- The solutions of a document that was read have their members in order. -/
theorem hasOrderedTerms_of_ofText? {content : List Char} (read : Json.ofText? content = some (.object root))
    (found : solutions? root = some solutions) : ∀ s ∈ solutions, HasOrderedTerms s := by
  obtain ⟨spelled, hspelled⟩ := Spelling.exists_of_ofText? read
  have ordered : IsOrdered (.object root) :=
    isOrdered_of_value? ((Spelling.ofText?_of_events hspelled).symm.trans read)
  unfold solutions? at found
  split at found
  · rename_i results hresults
    split at found
    · rename_i items hbindings
      obtain rfl := Option.some.inj found
      cases (ordered.member hresults).member hbindings with
      | array each => exact fun s hs => (each s hs).hasOrderedTerms
    · cases found
  · cases found

/-- Documents that differ in their solutions only are equal exactly when these are, up to their numbers. -/
theorem ofMembers_changeSolutions_iff (found : solutions? root = some solutions)
    (empty : others.isEmpty = solutions.isEmpty) :
    ofMembers (changeSolutions (fun _ => others) root) false = ofMembers root false ↔
      (normalize false others).map Json.representative = (normalize false solutions).map Json.representative := by
  have found_others : solutions? (changeSolutions (fun _ => others) root) = some others := by
    rw [solutions?_changeSolutions, found, Option.map_some]
  have boolean : member? "boolean" (changeSolutions (fun _ => others) root) = member? "boolean" root :=
    member?_change_of_ne (by decide) _ _
  have head : member? "head" (changeSolutions (fun _ => others) root) = member? "head" root :=
    member?_change_of_ne (by decide) _ _
  have members_others : members (changeSolutions (fun _ => others) root) false =
      kept (member? "boolean" root) (head? root solutions.isEmpty) (some (resultsOf (normalize false others))) := by
    rw [members_eq, found_others, boolean, Option.any_some, head?_congr head, empty, Option.map_some]
  have members_root : members root false =
      kept (member? "boolean" root) (head? root solutions.isEmpty) (some (resultsOf (normalize false solutions))) := by
    rw [members_eq, found, Option.any_some, Option.map_some]
  rw [ofMembers, ofMembers, members_others, members_root, mk.injEq, String.ofList_inj, Json.pretty_eq_iff]
  simp only [Json.representative, Json.memberRepresentatives_eq_map, kept, resultsOf, List.map_append,
    Option.toList_some, List.map_cons, List.map_nil, Json.object.injEq, List.append_cancel_left_eq,
    List.cons.injEq, Prod.mk.injEq, true_and, and_true, Json.array.injEq, Json.representatives_eq_map]

theorem keyClass_representative (k : String) (solutions : List Json) :
    keyClass sortKey k (plain (solutions.map Json.representative)) =
      (keyClass sortKey k (plain solutions)).map Json.representative := by
  have swap : plain (solutions.map Json.representative) = (plain solutions).map Json.representative := by
    rw [plain, plain, List.map_map, List.map_map]
    exact List.map_congr_left fun s _ => mapTerms_representative s plainType_representatives
  rw [swap, keyClass, List.filter_map]
  refine congrArg (List.map _) (List.filter_congr fun s _ => ?_)
  rw [Function.comp_apply, sortKey_representative]

/-- A text of an unordered document and one with its solutions in another order give the same document exactly
when a renaming of labels pairs the solutions of each key, in the orders they came in, with solutions that are
written alike. -/
theorem ofText_permuted_iff {content permuted : List Char} (read : Json.ofText? content = some (.object root))
    (found : solutions? root = some solutions) (perm : solutions.Perm others)
    (read_permuted : Json.ofText? permuted = some (.object (changeSolutions (fun _ => others) root))) :
    (∃ d, ofText content false = .ok d ∧ ofText permuted false = .ok d) ↔
      ∃ f : String → String, Set.InjOn f {l | l ∈ labelsBy solutionLabels solutions} ∧
        ∀ k, (keyClass sortKey k (plain others)).map (Json.pretty 0) =
          (keyClass sortKey k (plain solutions)).map fun s => Json.pretty 0 (mapTerms (relabel f) s) := by
  have document : ofText content false = .ok (ofMembers root false) := by rw [ofText, read]
  have document_permuted : ofText permuted false =
      .ok (ofMembers (changeSolutions (fun _ => others) root) false) := by rw [ofText, read_permuted]
  have same : (∃ d, ofText content false = .ok d ∧ ofText permuted false = .ok d) ↔
      ofMembers (changeSolutions (fun _ => others) root) false = ofMembers root false := by
    rw [document, document_permuted]
    simp
  have empty : others.isEmpty = solutions.isEmpty := by
    rw [Bool.eq_iff_iff, List.isEmpty_iff_length_eq_zero, List.isEmpty_iff_length_eq_zero, perm.length_eq]
  have ordered : ∀ s ∈ others.map Json.representative, HasOrderedTerms s := by
    intro s hs
    obtain ⟨o, ho, rfl⟩ := List.mem_map.mp hs
    exact (hasOrderedTerms_of_ofText? read found o (perm.mem_iff.mpr ho)).representative
  rw [same, ofMembers_changeSolutions_iff found empty, ← normalize_representative, ← normalize_representative,
    normalize_eq_iff ordered, labelsBy_representative]
  refine exists_congr fun f => and_congr_right fun _ => forall_congr' fun k => ?_
  have written : ∀ o s : Json, o.representative = mapTerms (relabel f) s.representative ↔
      Json.pretty 0 o = Json.pretty 0 (mapTerms (relabel f) s) := by
    intro o s
    rw [mapTerms_representative s fun term => relabel_representatives term f, Json.pretty_eq_iff]
  rw [keyClass_representative, keyClass_representative, List.map_map]
  constructor
  · exact fun h => map_eq_of_map_eq h fun o _ s _ => (written o s).mp
  · exact fun h => map_eq_of_map_eq h fun o _ s _ => (written o s).mpr

/-- A solution that binds one variable to a blank node. -/
def blankSolution (label : String) : Json :=
  .object [("x", .object [("type", .string "bnode"), ("value", .string label)])]

def blankMembers (labels : List String) : JsonMembers :=
  [("head", .object [("vars", .array [.string "x"])]), ("results", resultsOf (labels.map blankSolution))]

def blankAnswer (labels : List String) : List Char := Utf8.raw (Json.pretty 0 (.object (blankMembers labels)))

theorem isWritable_blankSolution (depth : Nat) (label : String) :
    Json.IsWritable (depth + 2) (blankSolution label) := by
  have term : Json.IsWritable (depth + 1) (.object [("type", .string "bnode"), ("value", .string label)]) := by
    refine .object (List.pairwise_pair.mpr (by decide : "type" < "value")) fun m hm => ?_
    obtain rfl | rfl := List.mem_pair.mp hm
    · exact .string depth "bnode"
    · exact .string depth label
  refine .object (List.pairwise_singleton _ _) fun m hm => ?_
  rw [List.mem_singleton.mp hm]
  exact term

theorem ofText?_blankAnswer (labels : List String) :
    Json.ofText? (blankAnswer labels) = some (.object (blankMembers labels)) := by
  have vars : Json.IsWritable 126 (.object [("vars", .array [.string "x"])]) := by
    refine .object (List.pairwise_singleton _ _) fun m hm => ?_
    rw [List.mem_singleton.mp hm]
    refine .array fun v hv => ?_
    rw [List.mem_singleton.mp hv]
    exact .string 124 "x"
  have bindings : Json.IsWritable 126 (resultsOf (labels.map blankSolution)) := by
    refine .object (List.pairwise_singleton _ _) fun m hm => ?_
    rw [List.mem_singleton.mp hm]
    refine .array fun v hv => ?_
    obtain ⟨label, -, rfl⟩ := List.mem_map.mp hv
    exact isWritable_blankSolution 122 label
  refine Json.ofText?_pretty (.object (List.pairwise_pair.mpr (by decide : "head" < "results")) fun m hm => ?_)
  obtain rfl | rfl := List.mem_pair.mp hm
  · exact vars
  · exact bindings

theorem sortKey_blankSolution (l m : String) : sortKey (blankSolution l) = sortKey (blankSolution m) := rfl

/-- Solutions that look the same stay in their places. -/
theorem normalize_blankSolutions (labels : List String) :
    normalize false (labels.map blankSolution) = relabelSolutions [] (labels.map blankSolution) := by
  have unchanged : (labels.map blankSolution).map (mapTerms plainType) = labels.map blankSolution := by
    rw [List.map_map]
    exact List.map_congr_left fun l _ => rfl
  have tied : (labels.map blankSolution).Pairwise fun a b => decide (sortKey a ≤ sortKey b) = true := by
    refine List.pairwise_map.mpr (List.pairwise_of_forall fun l m => decide_eq_true ?_)
    rw [sortKey_blankSolution l m]
  rw [normalize_eq, arranged, unchanged]
  exact congrArg (relabelSolutions []) (List.mergeSort_of_pairwise tied)

theorem renaming_of_two_solutions :
    ∃ f : String → String, Set.InjOn f {l | l ∈ labelsBy solutionLabels (["a", "b"].map blankSolution)} ∧
      ∀ k, (keyClass sortKey k (plain (["b", "a"].map blankSolution))).map (Json.pretty 0) =
        (keyClass sortKey k (plain (["a", "b"].map blankSolution))).map fun s =>
          Json.pretty 0 (mapTerms (relabel f) s) := by
  have read := ofText?_blankAnswer ["a", "b"]
  have read_permuted : Json.ofText? (blankAnswer ["b", "a"]) =
      some (.object (changeSolutions (fun _ => ["b", "a"].map blankSolution) (blankMembers ["a", "b"]))) :=
    ofText?_blankAnswer ["b", "a"]
  have numbered : normalize false (["b", "a"].map blankSolution) =
      normalize false (["a", "b"].map blankSolution) := by
    rw [normalize_blankSolutions, normalize_blankSolutions]
    rfl
  have found : solutions? (blankMembers ["a", "b"]) = some (["a", "b"].map blankSolution) := rfl
  have empty : (["b", "a"].map blankSolution).isEmpty = (["a", "b"].map blankSolution).isEmpty := rfl
  have same : ofMembers (changeSolutions (fun _ => ["b", "a"].map blankSolution) (blankMembers ["a", "b"])) false =
      ofMembers (blankMembers ["a", "b"]) false := by
    rw [ofMembers_changeSolutions_iff found empty, numbered]
  refine (ofText_permuted_iff read found (.swap _ _ _) read_permuted).mp
    ⟨ofMembers (blankMembers ["a", "b"]) false, ?_, ?_⟩
  · rw [ofText, read]
  · rw [ofText, read_permuted, ← same]

/-- The place of a solution among solutions that look the same tells on the labels of those behind it. -/
theorem differ_of_permuted_solutions :
    solutions? (blankMembers ["a", "a", "b"]) = some (["a", "a", "b"].map blankSolution) ∧
      (["a", "a", "b"].map blankSolution).Perm (["a", "b", "a"].map blankSolution) ∧
      Json.ofText? (blankAnswer ["a", "a", "b"]) = some (.object (blankMembers ["a", "a", "b"])) ∧
      Json.ofText? (blankAnswer ["a", "b", "a"]) =
        some (.object (changeSolutions (fun _ => ["a", "b", "a"].map blankSolution) (blankMembers ["a", "a", "b"]))) ∧
      ofText (blankAnswer ["a", "b", "a"]) false ≠ ofText (blankAnswer ["a", "a", "b"]) false := by
  have found : solutions? (blankMembers ["a", "a", "b"]) = some (["a", "a", "b"].map blankSolution) := rfl
  have empty : (["a", "b", "a"].map blankSolution).isEmpty = (["a", "a", "b"].map blankSolution).isEmpty := rfl
  have read := ofText?_blankAnswer ["a", "a", "b"]
  have read_permuted : Json.ofText? (blankAnswer ["a", "b", "a"]) = some (.object
      (changeSolutions (fun _ => ["a", "b", "a"].map blankSolution) (blankMembers ["a", "a", "b"]))) :=
    ofText?_blankAnswer ["a", "b", "a"]
  refine ⟨found, .cons _ (.swap _ _ _), read, read_permuted, fun same => ?_⟩
  rw [ofText, ofText, read, read_permuted] at same
  have alike := (ofMembers_changeSolutions_iff found empty).mp (Except.ok.inj same)
  rw [normalize_blankSolutions, normalize_blankSolutions] at alike
  have labels := congrArg (List.map solutionLabels) alike
  simp only [List.map_map, Function.comp_def, solutionLabels_representative] at labels
  revert labels
  cbv
  decide

end Texts

end SparqlConformance.ResultsDocument
