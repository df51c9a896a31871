import Mathlib
import SparqlConformance.Proofs.DocumentSolutions
import SparqlConformance.Proofs.JsonText
/-!
# Documents are normal forms

The text of a document is read to the same document again, and a document does not tell the texts apart from
which it can be read: other labels, the two types of literals, links and members that are not kept, and the
places of members leave it as it is.
-/
namespace SparqlConformance.ResultsDocument

open Json (IsWritable)

section Members

/-- What a document is made of. -/
def kept (boolean head results : Option Json) : JsonMembers :=
  boolean.toList.map (fun v => ("boolean", v)) ++ head.toList.map (fun v => ("head", v)) ++
    results.toList.map (fun v => ("results", v))

theorem member?_kept (boolean head results : Option Json) :
    member? "boolean" (kept boolean head results) = boolean ∧
      member? "head" (kept boolean head results) = head ∧
      member? "results" (kept boolean head results) = results := by
  cases boolean <;> cases head <;> cases results <;> exact ⟨rfl, rfl, rfl⟩

theorem increasing_kept (boolean head results : Option Json) : Increasing (kept boolean head results) := by
  have first : "boolean" < "head" := by decide
  have second : "head" < "results" := by decide
  have third : "boolean" < "results" := by decide
  cases boolean <;> cases head <;> cases results <;>
    simp only [kept, Increasing, Option.toList_some, Option.toList_none, List.map_cons, List.map_nil,
      List.nil_append, List.cons_append, List.pairwise_cons, List.forall_mem_cons, List.Pairwise.nil,
      List.not_mem_nil, false_imp_iff, implies_true, first, second, third, and_self]

theorem mem_kept {boolean head results : Option Json} {m : String × Json}
    (h : m ∈ kept boolean head results) : boolean = some m.2 ∨ head = some m.2 ∨ results = some m.2 := by
  simp only [kept, List.mem_append, List.mem_map, Option.mem_toList] at h
  rcases h with (⟨v, hv, rfl⟩ | ⟨v, hv, rfl⟩) | ⟨v, hv, rfl⟩
  · exact Or.inl hv
  · exact Or.inr (Or.inl hv)
  · exact Or.inr (Or.inr hv)

/-- The member of a document that holds its solutions. -/
def resultsOf (solutions : List Json) : Json := .object [("bindings", .array solutions)]

theorem members_eq (root : JsonMembers) (ordered : Bool) :
    members root ordered = kept (member? "boolean" root) (head? root ((solutions? root).any List.isEmpty))
      ((solutions? root).map fun s => resultsOf (normalize ordered s)) :=
  rfl

/-- The head without what is not kept of it. -/
def keptHead (noSolution : Bool) (head : JsonMembers) : JsonMembers :=
  let head := without "link" head
  if noSolution then without "vars" head else head

theorem keptHead_keptHead (noSolution : Bool) (head : JsonMembers) :
    keptHead noSolution (keptHead noSolution head) = keptHead noSolution head := by
  cases noSolution with
  | false => simp [keptHead, without, List.filter_filter]
  | true =>
    simp only [keptHead, without, List.filter_filter, if_true]
    refine List.filter_congr fun m _ => ?_
    cases m.1 != "link" <;> cases m.1 != "vars" <;> rfl

theorem head?_of_object {root head : JsonMembers} (h : member? "head" root = some (.object head))
    (noSolution : Bool) :
    head? root noSolution =
      if (keptHead noSolution head).isEmpty then none else some (.object (keptHead noSolution head)) := by
  rw [head?, h]
  rfl

theorem head?_of_other {root : JsonMembers} (h : ∀ head, member? "head" root ≠ some (.object head))
    (noSolution : Bool) : head? root noSolution = member? "head" root := by
  unfold head?
  split
  · rename_i head heq
    exact absurd heq (h head)
  · rfl

theorem head?_congr {root other : JsonMembers} (same : member? "head" other = member? "head" root)
    (noSolution : Bool) : head? other noSolution = head? root noSolution := by
  rw [head?, head?, same]

/-- The head of a document is its own head. -/
theorem head?_of_head? {root other : JsonMembers} {noSolution : Bool}
    (h : member? "head" other = head? root noSolution) : head? other noSolution = head? root noSolution := by
  by_cases object : ∃ head, member? "head" root = some (.object head)
  · obtain ⟨head, hhead⟩ := object
    rw [head?_of_object hhead] at h ⊢
    split at h
    · rename_i empty
      rw [head?_of_other (by simp [h]), h, if_pos empty]
    · rename_i nonempty
      rw [head?_of_object h, keptHead_keptHead]
  · have other_head := head?_of_other (not_exists.mp object) noSolution
    rw [other_head] at h ⊢
    rw [head?_congr h, other_head]

theorem solutions?_of_results {root : JsonMembers} {solutions : Option (List Json)}
    (h : member? "results" root = solutions.map resultsOf) : solutions? root = solutions := by
  rw [solutions?, h]
  cases solutions <;> rfl

variable (root : JsonMembers) (ordered : Bool)

theorem solutions?_members :
    solutions? (members root ordered) = (solutions? root).map (normalize ordered) := by
  refine solutions?_of_results ?_
  rw [members_eq, (member?_kept _ _ _).2.2, Option.map_map]
  rfl

theorem members_members : members (members root ordered) ordered = members root ordered := by
  have empty : (solutions? (members root ordered)).any List.isEmpty = (solutions? root).any List.isEmpty := by
    rw [solutions?_members, Option.any_map]
    exact congrArg (Option.any · _) (funext (isEmpty_normalize ordered))
  have head : head? (members root ordered) ((solutions? root).any List.isEmpty) =
      head? root ((solutions? root).any List.isEmpty) :=
    head?_of_head? (member?_kept _ _ _).2.1
  have boolean : member? "boolean" (members root ordered) = member? "boolean" root :=
    (member?_kept _ _ _).1
  have results : (solutions? (members root ordered)).map (fun s => resultsOf (normalize ordered s)) =
      (solutions? root).map fun s => resultsOf (normalize ordered s) := by
    rw [solutions?_members, Option.map_map]
    exact congrArg (Option.map · _) (funext fun s => congrArg resultsOf (normalize_normalize ordered s))
  rw [members_eq (members root ordered), empty, head, boolean, results, members_eq]

end Members

section Writing

variable {depth : Nat}

theorem isWritable_object {members : JsonMembers} :
    IsWritable depth (.object members) ↔
      ∃ d, depth = d + 1 ∧ Increasing members ∧ ∀ m ∈ members, IsWritable d m.2 := by
  constructor
  · rintro (_ | _ | _ | _ | _ | ⟨increasing, each⟩)
    exact ⟨_, rfl, increasing, each⟩
  · rintro ⟨d, rfl, increasing, each⟩
    exact .object increasing each

theorem isWritable_array {items : List Json} :
    IsWritable depth (.array items) ↔ ∃ d, depth = d + 1 ∧ ∀ v ∈ items, IsWritable d v := by
  constructor
  · rintro (_ | _ | _ | _ | ⟨each⟩ | _)
    exact ⟨_, rfl, each⟩
  · rintro ⟨d, rfl, each⟩
    exact .array each

theorem isWritable_insert {term : JsonMembers} (h : IsWritable depth (.object term)) (name value : String) :
    IsWritable depth (.object (Members.insert name (.string value) term)) := by
  obtain ⟨d, rfl, increasing, each⟩ := isWritable_object.mp h
  refine .object (Members.increasing_insert _ _ increasing) fun m hm => ?_
  rcases Members.mem_of_mem_insert hm with rfl | hm
  · exact .string d value
  · exact each m hm

theorem isWritable_plainType {term : JsonMembers} (h : IsWritable depth (.object term)) :
    IsWritable depth (.object (plainType term)) := by
  unfold plainType
  split
  · exact isWritable_insert h _ _
  · exact h

theorem isWritable_relabel (f : String → String) {term : JsonMembers}
    (h : IsWritable depth (.object term)) : IsWritable depth (.object (relabel f term)) := by
  unfold relabel
  split
  · exact isWritable_insert h _ _
  · exact h

theorem isWritable_mapTerms {f : JsonMembers → JsonMembers}
    (terms : ∀ {d term}, IsWritable d (.object term) → IsWritable d (.object (f term)))
    {solution : Json} (h : IsWritable depth solution) : IsWritable depth (mapTerms f solution) := by
  cases solution with
  | object cells =>
    obtain ⟨d, rfl, increasing, each⟩ := isWritable_object.mp h
    rw [mapTerms_object]
    refine .object (increasing.map fun m => ?_) fun m hm => ?_
    · obtain ⟨name, value⟩ := m
      cases value <;> rfl
    · obtain ⟨⟨name, value⟩, hcell, rfl⟩ := List.mem_map.mp hm
      cases value with
      | object term => exact terms (each _ hcell)
      | _ => exact each _ hcell
  | _ => exact h

theorem isWritable_normalize {ordered : Bool} {solutions : List Json}
    (h : ∀ s ∈ solutions, IsWritable depth s) : ∀ s ∈ normalize ordered solutions, IsWritable depth s := by
  intro s hs
  rw [normalize_eq, relabelSolutions_nil] at hs
  obtain ⟨t, ht, rfl⟩ := List.mem_map.mp hs
  obtain ⟨u, hu, rfl⟩ := List.mem_map.mp ((arranged_perm ordered solutions).mem_iff.mp ht)
  exact isWritable_mapTerms (isWritable_relabel _) (isWritable_mapTerms isWritable_plainType (h u hu))

theorem isWritable_head? {root : JsonMembers} {noSolution : Bool} {v : Json}
    (each : ∀ m ∈ root, IsWritable depth m.2) (h : head? root noSolution = some v) :
    IsWritable depth v := by
  by_cases object : ∃ head, member? "head" root = some (.object head)
  · obtain ⟨head, hhead⟩ := object
    obtain ⟨d, rfl, increasing, each_head⟩ := isWritable_object.mp (each _ (mem_of_lookup hhead))
    rw [head?_of_object hhead] at h
    split at h
    · cases h
    · obtain rfl := Option.some.inj h
      have part : (keptHead noSolution head).Sublist head := by
        unfold keptHead without
        cases noSolution with
        | false => exact List.filter_sublist
        | true => exact List.filter_sublist.trans List.filter_sublist
      exact .object (increasing.sublist part) fun m hm => each_head m (part.subset hm)
  · rw [head?_of_other (not_exists.mp object)] at h
    exact each _ (mem_of_lookup h)

theorem isWritable_solutions {root : JsonMembers} {ordered : Bool} {solutions : List Json}
    (each : ∀ m ∈ root, IsWritable depth m.2) (h : solutions? root = some solutions) :
    IsWritable depth (resultsOf (normalize ordered solutions)) := by
  unfold solutions? at h
  split at h
  · rename_i results hresults
    split at h
    · rename_i found hbindings
      obtain rfl := Option.some.inj h
      obtain ⟨d, rfl, -, each_results⟩ := isWritable_object.mp (each _ (mem_of_lookup hresults))
      obtain ⟨d, rfl, each_solution⟩ := isWritable_array.mp (each_results _ (mem_of_lookup hbindings))
      refine .object (List.pairwise_singleton _ _) fun m hm => ?_
      obtain rfl := List.mem_singleton.mp hm
      exact .array (isWritable_normalize each_solution)
    · cases h
  · cases h

theorem isWritable_members {root : JsonMembers} (ordered : Bool) (h : IsWritable depth (.object root)) :
    IsWritable depth (.object (members root ordered)) := by
  obtain ⟨d, rfl, -, each⟩ := isWritable_object.mp h
  rw [members_eq]
  refine .object (increasing_kept _ _ _) fun m hm => ?_
  rcases mem_kept hm with boolean | head | results
  · exact each ("boolean", m.2) (mem_of_lookup boolean)
  · exact isWritable_head? each head
  · obtain ⟨solutions, hsolutions, hvalue⟩ := Option.map_eq_some_iff.mp results
    rw [← hvalue]
    exact isWritable_solutions each hsolutions

/-- A document is read back from its own text. -/
theorem ofText_rawOf {root : JsonMembers} (ordered : Bool)
    (h : IsWritable Json.depthLimit (.object root)) :
    ofText (Utf8.rawOf (ofMembers root ordered).text) ordered = .ok (ofMembers root ordered) := by
  have read : Json.ofText? (Utf8.rawOf (ofMembers root ordered).text) =
      some (.object (members root ordered)) := by
    rw [ofMembers, Utf8.rawOf_ofList]
    exact Json.ofText?_pretty (isWritable_members ordered h)
  rw [ofText, read]
  dsimp only
  rw [ofMembers, ofMembers, members_members]

end Writing

section Edits

/-- Changes what stands under a name. -/
def change (name : String) (f : Json → Json) (members : JsonMembers) : JsonMembers :=
  members.map fun (n, v) => (n, if n = name then f v else v)

/-- Changes the members of an object. -/
def inObject (f : JsonMembers → JsonMembers) : Json → Json
  | .object members => .object (f members)
  | v => v

/-- Changes the items of an array. -/
def inArray (f : List Json → List Json) : Json → Json
  | .array items => .array (f items)
  | v => v

/-- Changes the solutions of a document. -/
def changeSolutions (f : List Json → List Json) : JsonMembers → JsonMembers :=
  change "results" (inObject (change "bindings" (inArray f)))

/-- Changes of a document that its canonical form does not show. -/
inductive Edit : JsonMembers → JsonMembers → Prop
  | rename (root : JsonMembers) (f : String → String)
      (inj : ∀ solutions, solutions? root = some solutions →
        Set.InjOn f {l | l ∈ labelsBy solutionLabels solutions}) :
      Edit root (changeSolutions (List.map (mapTerms (relabel f))) root)
  | retype (root : JsonMembers) (before : List Json) (front : JsonMembers) (name : String)
      (term : JsonMembers) (back : JsonMembers) (after : List Json)
      (found : solutions? root =
        some (before ++ .object (front ++ (name, .object term) :: back) :: after))
      (typed : typeOf? term = some "typed-literal") :
      Edit root (changeSolutions (fun _ => before ++ .object (front ++
        (name, .object (Members.insert "type" (.string "literal") term)) :: back) :: after) root)
  | link (root : JsonMembers) (value : Json) :
      Edit root (change "head" (inObject (Members.insert "link" value)) root)
  | head (root : JsonMembers) (value : Json) (absent : member? "head" root = none) :
      Edit root (Members.insert "head" (.object [("link", value)]) root)
  | member (root : JsonMembers) (name : String) (value : Json)
      (other : name ∉ ["boolean", "head", "results"]) : Edit root (Members.insert name value root)
  | result (root : JsonMembers) (name : String) (value : Json) (other : name ≠ "bindings") :
      Edit root (change "results" (inObject (Members.insert name value)) root)

variable {root other : JsonMembers} {ordered : Bool}

theorem member?_change (name wanted : String) (f : Json → Json) (members : JsonMembers) :
    member? wanted (change name f members) =
      if wanted = name then (member? wanted members).map f else member? wanted members := by
  induction members with
  | nil => simp [change, member?]
  | cons m members ih =>
    obtain ⟨n, v⟩ := m
    unfold change member? at ih ⊢
    rw [List.map_cons, lookup_cons_eq_ite, lookup_cons_eq_ite, ih]
    by_cases found : wanted = n
    · subst found
      rw [if_pos rfl, if_pos rfl]
      split <;> rfl
    · rw [if_neg found, if_neg found]

theorem member?_change_self (name : String) (f : Json → Json) (members : JsonMembers) :
    member? name (change name f members) = (member? name members).map f := by
  rw [member?_change, if_pos rfl]

theorem member?_change_of_ne {name wanted : String} (apart : wanted ≠ name) (f : Json → Json)
    (members : JsonMembers) : member? wanted (change name f members) = member? wanted members := by
  rw [member?_change, if_neg apart]

theorem solutions?_congr (same : member? "results" other = member? "results" root) :
    solutions? other = solutions? root := by
  rw [solutions?, solutions?, same]

theorem solutions?_changeSolutions (f : List Json → List Json) (root : JsonMembers) :
    solutions? (changeSolutions f root) = (solutions? root).map f := by
  rw [solutions?, solutions?, changeSolutions, member?_change_self]
  cases member? "results" root with
  | none => rfl
  | some results =>
    cases results with
    | object results =>
      rw [Option.map_some, inObject]
      dsimp only
      rw [member?_change_self]
      cases member? "bindings" results with
      | none => rfl
      | some bindings => cases bindings <;> rfl
    | _ => rfl

theorem solutions?_insert_result {name : String} (apart : name ≠ "bindings") (value : Json)
    (root : JsonMembers) :
    solutions? (change "results" (inObject (Members.insert name value)) root) = solutions? root := by
  rw [solutions?, solutions?, member?_change_self]
  cases member? "results" root with
  | none => rfl
  | some results =>
    cases results with
    | object results =>
      rw [Option.map_some, inObject]
      dsimp only
      rw [member?_insert, if_neg (Ne.symm apart)]
    | _ => rfl

/-- Only three things of a document are looked at. -/
theorem members_congr (boolean : member? "boolean" other = member? "boolean" root)
    (head : ∀ noSolution, head? other noSolution = head? root noSolution)
    (solutions : (solutions? other).map (normalize ordered) = (solutions? root).map (normalize ordered)) :
    members other ordered = members root ordered := by
  have empty : (solutions? other).any List.isEmpty = (solutions? root).any List.isEmpty := by
    have same := congrArg (Option.any List.isEmpty) solutions
    have hidden : (fun s => (normalize ordered s).isEmpty) = List.isEmpty :=
      funext (isEmpty_normalize ordered)
    rwa [Option.any_map, Option.any_map, hidden] at same
  have results := congrArg (Option.map resultsOf) solutions
  rw [Option.map_map, Option.map_map] at results
  rw [members_eq, members_eq, boolean, head, empty]
  exact congrArg (kept _ _) results

theorem members_changeSolutions {f : List Json → List Json}
    (same : ∀ solutions, solutions? root = some solutions →
      normalize ordered (f solutions) = normalize ordered solutions) :
    members (changeSolutions f root) ordered = members root ordered := by
  refine members_congr (member?_change_of_ne (by decide) _ _)
    (head?_congr (member?_change_of_ne (by decide) _ _)) ?_
  rw [solutions?_changeSolutions, Option.map_map]
  cases found : solutions? root with
  | none => rfl
  | some solutions => exact congrArg some (same solutions found)

theorem head?_link (value : Json) (root : JsonMembers) (noSolution : Bool) :
    head? (change "head" (inObject (Members.insert "link" value)) root) noSolution =
      head? root noSolution := by
  have found := member?_change_self "head" (inObject (Members.insert "link" value)) root
  by_cases object : ∃ head, member? "head" root = some (.object head)
  · obtain ⟨head, hhead⟩ := object
    rw [hhead, Option.map_some, inObject] at found
    have unlinked : without "link" (Members.insert "link" value head) = without "link" head :=
      Members.filter_insert (p := (· != "link")) (by decide) value head
    have same : keptHead noSolution (Members.insert "link" value head) = keptHead noSolution head := by
      rw [keptHead, unlinked, keptHead]
    rw [head?_of_object found, head?_of_object hhead, same]
  · refine head?_congr (found.trans ?_) noSolution
    cases hhead : member? "head" root with
    | none => rfl
    | some head =>
      cases head with
      | object head => exact absurd ⟨head, hhead⟩ object
      | _ => rfl

theorem plainType_insert (term : JsonMembers) (typed : typeOf? term = some "typed-literal") :
    plainType (Members.insert "type" (.string "literal") term) = plainType term := by
  have literal : typeOf? (Members.insert "type" (.string "literal") term) ≠ some "typed-literal" := by
    rw [typeOf?, member?_insert, if_pos rfl]
    decide
  rw [plainType_of_ne literal, plainType, if_pos typed]

/-- What an edit changes is not in the canonical form. -/
theorem Edit.members_eq (edit : Edit root other) : members other ordered = members root ordered := by
  cases edit with
  | rename f inj => exact members_changeSolutions fun s found => normalize_relabel ordered s (inj s found)
  | retype before front name term back after found typed =>
    refine members_changeSolutions fun solutions found' => normalize_congr ordered ?_
    obtain rfl := Option.some.inj (found.symm.trans found')
    simp only [List.map_append, List.map_cons, mapTerms_object, mapCell, plainType_insert term typed]
  | link value =>
    refine members_congr (member?_change_of_ne (by decide) _ _) (head?_link value root) ?_
    rw [solutions?_congr (member?_change_of_ne (by decide) _ _)]
  | head value absent =>
    refine members_congr ?_ (fun noSolution => ?_) ?_
    · rw [member?_insert, if_neg (by decide)]
    · have found : member? "head" (Members.insert "head" (.object [("link", value)]) root) =
          some (.object [("link", value)]) := by
        rw [member?_insert, if_pos rfl]
      rw [head?_of_object found, head?_of_other (by simp [absent]), absent]
      cases noSolution <;> rfl
    · rw [solutions?_congr]
      rw [member?_insert, if_neg (by decide)]
  | member name value other =>
    have apart : ∀ n ∈ ["boolean", "head", "results"], member? n (Members.insert name value root) =
        member? n root := by
      intro n hn
      rw [member?_insert, if_neg (ne_of_mem_of_not_mem hn other)]
    refine members_congr (apart _ (by simp)) (head?_congr (apart _ (by simp))) ?_
    rw [solutions?_congr (apart _ (by simp))]
  | result name value other =>
    refine members_congr (member?_change_of_ne (by decide) _ _)
      (head?_congr (member?_change_of_ne (by decide) _ _)) ?_
    rw [solutions?_insert_result other]

end Edits

section Texts

variable {s t : Spelling} {content : List Char} {ordered : Bool}

/-- The document of what a text says, if that is an object. -/
def ofSpelling? (s : Spelling) (ordered : Bool) : Option ResultsDocument :=
  match s.value? Json.depthLimit with
  | some (.object root) => some (ofMembers root ordered)
  | _ => none

theorem ofSpelling?_of_value? {root : JsonMembers} (h : s.value? Json.depthLimit = some (.object root))
    (ordered : Bool) : ofSpelling? s ordered = some (ofMembers root ordered) := by
  rw [ofSpelling?, h]

theorem exists_of_ofText {d : ResultsDocument} (h : ofText content ordered = .ok d) :
    ∃ root, Json.ofText? content = some (.object root) ∧ d = ofMembers root ordered := by
  unfold ofText at h
  split at h
  · cases h
  · rename_i root hroot
    exact ⟨root, hroot, (Except.ok.inj h).symm⟩
  · cases h

theorem ofText_eq_ok_iff {d : ResultsDocument} (spelled : Json.events content = s.events) :
    ofText content ordered = .ok d ↔ ofSpelling? s ordered = some d := by
  have value := Spelling.ofText?_of_events spelled
  constructor
  · intro h
    obtain ⟨root, hroot, rfl⟩ := exists_of_ofText h
    exact ofSpelling?_of_value? (value.symm.trans hroot) ordered
  · intro h
    unfold ofSpelling? at h
    split at h
    · rename_i root hroot
      rw [ofText, value, hroot]
      exact congrArg Except.ok (Option.some.inj h)
    · cases h

/-- What two texts say differs by the places of members or by an edit of the document. -/
inductive Alike : Spelling → Spelling → Prop
  | reorder {s t : Spelling} (unique : s.HasUniqueNames)
      (reordered : Relation.ReflTransGen Spelling.Reordered s t) : Alike s t
  | edit {s t : Spelling} {root other : JsonMembers}
      (value : s.value? Json.depthLimit = some (.object root))
      (edited : t.value? Json.depthLimit = some (.object other)) (edit : Edit root other) : Alike s t

theorem Alike.ofSpelling?_eq (alike : Alike s t) : ofSpelling? s ordered = ofSpelling? t ordered := by
  cases alike with
  | reorder unique reordered =>
    rw [ofSpelling?, ofSpelling?, Spelling.value?_eq_of_reorderings reordered unique]
  | edit value edited edit =>
    rw [ofSpelling?_of_value? value, ofSpelling?_of_value? edited, ofMembers, ofMembers, edit.members_eq]

/-- A chain of edits, in either direction, leads to the same document. -/
theorem ofSpelling?_eq_of_eqvGen (alike : Relation.EqvGen Alike s t) :
    ofSpelling? s ordered = ofSpelling? t ordered := by
  induction alike with
  | rel s t alike => exact alike.ofSpelling?_eq
  | refl s => rfl
  | symm s t _ ih => exact ih.symm
  | trans r s t _ _ first second => exact first.trans second

/-- A document whose numbers are integers is read from its own text, and from every text alike to one that it
is read from. -/
theorem ofText_text_and_ofText_alike {d : ResultsDocument} (read : ofText content ordered = .ok d) :
    (∃ s : Spelling, Json.events content = s.events) ∧
      ∀ s : Spelling, Json.events content = s.events →
        (Json.HasIntegers s → ofText (Utf8.rawOf d.text) ordered = .ok d) ∧
          ∀ (edited : List Char) (t : Spelling), Json.events edited = t.events →
            Relation.EqvGen Alike s t → ofText edited ordered = .ok d := by
  obtain ⟨root, hroot, rfl⟩ := exists_of_ofText read
  refine ⟨Spelling.exists_of_ofText? hroot, fun s spelled => ⟨fun integers => ?_, ?_⟩⟩
  · have value := (Spelling.ofText?_of_events spelled).symm.trans hroot
    exact ofText_rawOf ordered (Json.isWritable_of_value? integers value)
  · intro edited t spelled_edited alike
    rw [ofText_eq_ok_iff spelled_edited, ← ofSpelling?_eq_of_eqvGen alike]
    exact (ofText_eq_ok_iff spelled).mp read

/-- An answer with a link and a blank node. -/
def linkedAnswer : String :=
  "\x7b\"head\":\x7b\"link\":[]\x7d,\"results\":\x7b\"bindings\":[\x7b\"x\":\x7b\"type\":\"bnode\",\"value\":\"r2\"\x7d\x7d]\x7d\x7d"

/-- The same answer without the link, and with another label in front of the type. -/
def plainAnswer : String :=
  "\x7b\"results\":\x7b\"bindings\":[\x7b\"x\":\x7b\"value\":\"other\",\"type\":\"bnode\"\x7d\x7d]\x7d\x7d"

/-- The spelling of an answer with one solution that has one cell. -/
def answerOf (front term : List (String × Spelling)) : Spelling :=
  .object (front ++ [("results", .object [("bindings", .array [.object [("x", .object term)]])])])

def linkedSpelling : Spelling :=
  answerOf [("head", .object [("link", .array [])])] [("type", .string "bnode"), ("value", .string "r2")]

def unlinkedSpelling : Spelling :=
  answerOf [] [("type", .string "bnode"), ("value", .string "r2")]

def renamedSpelling : Spelling :=
  answerOf [] [("type", .string "bnode"), ("value", .string "other")]

def plainSpelling : Spelling :=
  answerOf [] [("value", .string "other"), ("type", .string "bnode")]

def answerMembers (label : String) : JsonMembers :=
  [("results", resultsOf [.object [("x", .object [("type", .string "bnode"), ("value", .string label)])]])]

theorem value?_unlinkedSpelling :
    unlinkedSpelling.value? Json.depthLimit = some (.object (answerMembers "r2")) := by
  cbv

theorem value?_linkedSpelling :
    linkedSpelling.value? Json.depthLimit =
      some (.object (Members.insert "head" (.object [("link", .array [])]) (answerMembers "r2"))) := by
  cbv

theorem value?_renamedSpelling :
    renamedSpelling.value? Json.depthLimit =
      some (.object (changeSolutions (List.map (mapTerms (relabel fun _ => "other"))) (answerMembers "r2"))) := by
  cbv

theorem linked_alike_plain : Relation.EqvGen Alike linkedSpelling plainSpelling := by
  have unlinked : Relation.EqvGen Alike linkedSpelling unlinkedSpelling :=
    .symm _ _ (.rel _ _ (.edit value?_unlinkedSpelling value?_linkedSpelling (.head _ _ rfl)))
  have renamed : Relation.EqvGen Alike unlinkedSpelling renamedSpelling := by
    refine .rel _ _ (.edit value?_unlinkedSpelling value?_renamedSpelling (.rename _ _ ?_))
    intro solutions found a ha b hb _
    obtain rfl := Option.some.inj found
    exact (List.mem_singleton.mp ha).trans (List.mem_singleton.mp hb).symm
  have reordered : Relation.EqvGen Alike renamedSpelling plainSpelling := by
    refine .rel _ _ (.reorder ?_ ?_)
    · simp [renamedSpelling, answerOf, Spelling.hasUniqueNames_object, Spelling.hasUniqueNames_array,
        Spelling.hasUniqueNames_string]
    · exact .single (.member [] "results" [] (.member [] "bindings" [] (.item [] [] (.member [] "x" []
        (.members (List.Perm.swap _ _ _))))))
  exact .trans _ _ _ unlinked (.trans _ _ _ renamed reordered)

/-- The two answers are one document, and so is the text of it. -/
theorem exists_document_of_answers :
    ∃ d, ofText linkedAnswer.toList false = .ok d ∧ ofText (Utf8.rawOf d.text) false = .ok d ∧
      ofText plainAnswer.toList false = .ok d := by
  have linked : Json.events linkedAnswer.toList = linkedSpelling.events := by cbv
  have plain : Json.events plainAnswer.toList = plainSpelling.events := by cbv
  have integers : Json.HasIntegers linkedSpelling := by
    simp [linkedSpelling, answerOf, Json.hasIntegers_object, Json.hasIntegers_array, Json.hasIntegers_string]
  have read := (ofText_eq_ok_iff linked).mpr (ofSpelling?_of_value? value?_linkedSpelling false)
  obtain ⟨reread, alike⟩ := (ofText_text_and_ofText_alike read).2 linkedSpelling linked
  exact ⟨_, read, reread integers, alike plainAnswer.toList plainSpelling plain linked_alike_plain⟩

end Texts

end SparqlConformance.ResultsDocument
