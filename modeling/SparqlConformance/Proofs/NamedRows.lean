import SparqlConformance.Answers.Csv
import SparqlConformance.Proofs.AsciiCharacters
import SparqlConformance.Proofs.Renaming
/-!
# Rows of named terms

Plain names, which readers take as they are written, and what a row binds when it is put together from
pairs of a name and a term.
-/
namespace SparqlConformance

open Text

/-- Names of ASCII letters, digits and low lines. -/
def IsPlainName (name : String) : Prop :=
  name ≠ "" ∧ ∀ c ∈ name.toList, c.isAlphanum = true ∨ c = '_'

instance (name : String) : Decidable (IsPlainName name) :=
  have : Decidable (∀ c ∈ name.toList, c.isAlphanum = true ∨ c = '_') := List.decidableBAll _ _
  inferInstanceAs (Decidable (name ≠ "" ∧ ∀ c ∈ name.toList, c.isAlphanum = true ∨ c = '_'))

/-- Whether a term can be written down: IRIs are absolute, and labels are well-formed. -/
def Term.IsValid : Term → Prop
  | iri text => Iri.isAbsolute text.toList = true
  | blank label => isBlankLabel label.toList = true
  | literal _ => True

instance : (t : Term) → Decidable t.IsValid
  | .iri text => inferInstanceAs (Decidable (Iri.isAbsolute text.toList = true))
  | .blank label => inferInstanceAs (Decidable (isBlankLabel label.toList = true))
  | .literal _ => instDecidableTrue

theorem isSpace_eq_false {c : Char} (h : c.isAlphanum = true ∨ c = '_') : isSpace c = false := by
  rcases h with h | rfl
  · have ranges : c.isAlpha = true ∨ c.isDigit = true := Bool.or_eq_true_iff.mp h
    rw [isAlpha_iff, isDigit_iff] at ranges
    simp only [isSpace, Bool.or_eq_false_iff, Bool.and_eq_false_iff, decide_eq_false_iff_not,
      beq_eq_false_iff_ne]
    omega
  · decide

theorem trim_of_no_space {s : List Char} (h : ∀ c ∈ s, isSpace c = false) : trim s = s := by
  have kept : ∀ {t : List Char}, (∀ c ∈ t, isSpace c = false) → t.dropWhile isSpace = t := by
    intro t ht
    cases t with
    | nil => rfl
    | cons c t => rw [List.dropWhile_cons, ht c (List.mem_cons_self ..), if_neg Bool.false_ne_true]
  have back : ∀ c ∈ s.reverse, isSpace c = false := fun c hc => h c (List.mem_reverse.mp hc)
  rw [trim, trimStart, kept h, trimEnd, kept back, List.reverse_reverse]

theorem variableName_of_isPlainName {name : String} (h : IsPlainName name) :
    variableName name.toList = name := by
  have trimmed := trim_of_no_space fun c hc => isSpace_eq_false (h.2 c hc)
  rw [variableName, trimmed]
  cases hname : name.toList with
  | nil => exact absurd (String.toList_eq_nil_iff.mp hname) h.1
  | cons c r =>
    have unmarked : (c == '?' || c == '$') = false := by
      rcases h.2 c (hname ▸ List.mem_cons_self ..) with letter | rfl
      · rw [Bool.or_eq_false_iff, beq_eq_false_iff_ne, beq_eq_false_iff_ne]
        refine ⟨?_, ?_⟩ <;> rintro rfl <;> exact absurd letter (by decide)
      · decide
    rw [List.dropWhile_cons, unmarked, if_neg Bool.false_ne_true, ← hname, String.ofList_toList]

namespace Solution

theorem bindings_ofPairs (pairs : List Binding) :
    (ofPairs pairs).bindings = Members.ofPairs pairs := by
  have known : ∀ (pairs : List Binding) (row : Solution),
      (pairs.foldl (fun row pair => row.insert pair.1 pair.2) row).bindings =
        pairs.foldl (fun members pair => Members.insert pair.1 pair.2 members) row.bindings := by
    intro pairs
    induction pairs with
    | nil => exact fun _ => rfl
    | cons pair pairs ih => exact fun row => ih (row.insert pair.1 pair.2)
  exact known pairs empty

/-- A row binds what its pairs say, when every name stands in one pair at most. -/
theorem get?_ofPairs {pairs : List Binding} (once : (pairs.map Prod.fst).Nodup) {name : String}
    {value : Term} : (ofPairs pairs).get? name = some value ↔ (name, value) ∈ pairs := by
  rw [get?_eq_some_iff, bindings_ofPairs, Members.mem_ofPairs once]

/-- Things with different names bind what is found of them. -/
theorem get?_ofPairs_filterMap {α : Type} {key : α → String} (f : α → Option Term) {things : List α}
    (once : (things.map key).Nodup) {name : String} {value : Term} :
    (ofPairs (things.filterMap fun a => (f a).map fun t => (key a, t))).get? name = some value ↔
      ∃ a ∈ things, key a = name ∧ f a = some value := by
  have names : ((things.filterMap fun a => (f a).map fun t => (key a, t)).map Prod.fst).Sublist
      (things.map key) := by
    clear once
    induction things with
    | nil => exact List.Sublist.slnil
    | cons a things ih =>
      rw [List.filterMap_cons]
      cases f a with
      | none => exact ih.cons _
      | some t => exact ih.cons_cons _
  rw [get?_ofPairs (names.nodup once), List.mem_filterMap]
  simp only [Option.map_eq_some_iff, Prod.mk.injEq]
  constructor
  · rintro ⟨a, ha, t, ht, rfl, rfl⟩
    exact ⟨a, ha, rfl, ht⟩
  · rintro ⟨a, ha, rfl, ht⟩
    exact ⟨a, ha, value, ht, rfl, rfl⟩

theorem mem_of_mem_names_ofPairs {pairs : List Binding} {name : String}
    (h : name ∈ (ofPairs pairs).names) : name ∈ pairs.map Prod.fst := by
  obtain ⟨bound, hbound, rfl⟩ := List.mem_map.mp h
  rw [bindings_ofPairs] at hbound
  exact List.mem_map_of_mem (Members.mem_of_mem_ofPairs hbound)

theorem get?_filterMap (f : Term → Option Term) (row : Solution) (name : String) :
    (row.filterMap f).get? name = (row.get? name).bind f := by
  apply Option.ext
  intro value
  rw [get?_eq_some_iff, Option.bind_eq_some_iff]
  simp only [filterMap, List.mem_filterMap, Option.map_eq_some_iff, get?_eq_some_iff]
  constructor
  · rintro ⟨⟨n, v⟩, bound, w, hw, heq⟩
    obtain ⟨rfl, rfl⟩ := Prod.mk.inj heq
    exact ⟨v, bound, hw⟩
  · rintro ⟨v, bound, hv⟩
    exact ⟨(name, v), bound, value, hv, rfl⟩

end Solution

/-- Different variables are declared in their order. -/
theorem declareAll_of_nodup {vars names : List String} (h : (vars ++ names).Nodup) :
    declareAll vars names = vars ++ names := by
  induction names generalizing vars with
  | nil => rw [List.append_nil, declareAll, List.foldl_nil]
  | cons name names ih =>
    have fresh : name ∉ vars := fun known =>
      (List.nodup_append.mp h).2.2 name known name (List.mem_cons_self ..) rfl
    have added : declare vars name = vars ++ [name] := if_neg fresh
    rw [List.append_cons] at h ⊢
    rw [declareAll, List.foldl_cons, added]
    exact ih h

end SparqlConformance
