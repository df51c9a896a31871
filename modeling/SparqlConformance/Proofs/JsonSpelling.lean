import Mathlib.Data.List.Perm.Basic
import Mathlib.Logic.Relation
import SparqlConformance.Format.Json.Value
import SparqlConformance.Proofs.MemberLists
/-!
# Spellings of JSON values

What a JSON text says before it is taken for a value: numbers as they are written, and members in the
order of the text. A text has a value exactly when its events are those of a spelling that has one, and
the value stays when members of different names change places, at any depth.
-/
namespace SparqlConformance

open Json (Event)

theorem exists_forall₂ {α β : Type} {R : α → β → Prop} {bs : List β} (h : ∀ b ∈ bs, ∃ a, R a b) :
    ∃ as, List.Forall₂ R as bs := by
  induction bs with
  | nil => exact ⟨[], .nil⟩
  | cons b bs ih =>
    obtain ⟨a, ha⟩ := h b (List.mem_cons_self ..)
    obtain ⟨as, has⟩ := ih fun c hc => h c (List.mem_cons_of_mem _ hc)
    exact ⟨a :: as, .cons ha has⟩

theorem exists_of_mem_forall₂ {α β : Type} {R : α → β → Prop} {as : List α} {bs : List β}
    (h : List.Forall₂ R as bs) {b : β} (hb : b ∈ bs) : ∃ a ∈ as, R a b := by
  induction h with
  | nil => cases hb
  | cons related _ ih =>
    rcases List.mem_cons.mp hb with rfl | hb
    · exact ⟨_, List.mem_cons_self .., related⟩
    · obtain ⟨a, ha, related⟩ := ih hb
      exact ⟨a, List.mem_cons_of_mem _ ha, related⟩

inductive Spelling
  | null
  | bool (value : Bool)
  | string (value : String)
  | number (text : List Char)
  | array (items : List Spelling)
  | object (members : List (String × Spelling))

namespace Spelling

mutual

def events : Spelling → List Event
  | null => [.null]
  | bool b => [.bool b]
  | string s => [.string s]
  | number text => [.number text]
  | array items => .beginArray :: itemEvents items
  | object members => .beginObject :: memberEvents members

def itemEvents : List Spelling → List Event
  | [] => [.endArray]
  | s :: items => s.events ++ itemEvents items

def memberEvents : List (String × Spelling) → List Event
  | [] => [.endObject]
  | (name, s) :: members => .key name :: (s.events ++ memberEvents members)

end

mutual

/-- The value of a spelling, if its numbers are not too large and its parts not too deep in each other. -/
def value? (depth : Nat) : Spelling → Option Json
  | null => some .null
  | bool b => some (.bool b)
  | string s => some (.string s)
  | number text => (JsonNumber.ofText? text).map .number
  | array items =>
    match depth with
    | 0 => none
    | depth + 1 => (itemValues? depth items).map .array
  | object members =>
    match depth with
    | 0 => none
    | depth + 1 => (memberValues? depth members).map fun pairs => .object (Members.ofPairs pairs)

def itemValues? (depth : Nat) : List Spelling → Option (List Json)
  | [] => some []
  | s :: items => (s.value? depth).bind fun v => (itemValues? depth items).map (v :: ·)

def memberValues? (depth : Nat) : List (String × Spelling) → Option (List (String × Json))
  | [] => some []
  | (name, s) :: members =>
    (s.value? depth).bind fun v => (memberValues? depth members).map ((name, v) :: ·)

end

section Reading

/-- No spelling starts with the end of the array that it may stand in. -/
theorem exists_first (s : Spelling) : ∃ e es, s.events = e :: es ∧ e ≠ .endArray := by
  cases s <;> exact ⟨_, _, rfl, Event.noConfusion⟩

theorem length_events_pos (s : Spelling) : 0 < s.events.length := by
  obtain ⟨e, es, hevents, -⟩ := s.exists_first
  rw [hevents]
  exact Nat.succ_pos _

theorem length_itemEvents_pos (items : List Spelling) : 0 < (itemEvents items).length := by
  cases items with
  | nil => exact Nat.succ_pos _
  | cons s items =>
    rw [itemEvents, List.length_append]
    exact Nat.add_pos_left s.length_events_pos _

theorem readItems_item {fuel depth : Nat} {e : Event} (item : e ≠ .endArray) (events : List Event) :
    Json.readItems (fuel + 1) depth (e :: events) =
      (Json.readValue fuel depth (e :: events)).bind fun (v, rest) =>
        (Json.readItems fuel depth rest).map fun (vs, rest) => (v :: vs, rest) := by
  rw [Json.readItems.eq_4 _ _ _ (by simp) (by simpa using item)]
  cases Json.readValue fuel depth (e :: events) <;> rfl

theorem readMembers_key {fuel depth : Nat} (name : String) (events : List Event) :
    Json.readMembers (fuel + 1) depth (.key name :: events) =
      (Json.readValue fuel depth events).bind fun (v, rest) =>
        (Json.readMembers fuel depth rest).map fun (pairs, rest) => ((name, v) :: pairs, rest) := by
  rw [Json.readMembers]
  cases Json.readValue fuel depth events <;> rfl

mutual

/-- The events of a spelling are read as its value, whatever follows. -/
theorem readValue_events : ∀ (s : Spelling) (fuel depth : Nat) (rest : List Event),
    s.events.length ≤ fuel →
    Json.readValue fuel depth (s.events ++ rest) = (s.value? depth).map fun v => (v, rest)
  | s, 0, _, _, enough => absurd enough (Nat.not_le.mpr s.length_events_pos)
  | null, _ + 1, _, _, _ | bool _, _ + 1, _, _, _ | string _, _ + 1, _, _, _ => rfl
  | number text, fuel + 1, depth, rest, _ => by
    rw [events, List.singleton_append, Json.readValue, value?, Option.map_map]
    rfl
  | array items, _ + 1, 0, _, _ | object members, _ + 1, 0, _, _ => rfl
  | array items, fuel + 1, depth + 1, rest, enough => by
    rw [events, List.cons_append, Json.readValue, value?,
      readItems_events items fuel depth rest (Nat.le_of_succ_le_succ enough), Option.map_map, Option.map_map]
    rfl
  | object members, fuel + 1, depth + 1, rest, enough => by
    rw [events, List.cons_append, Json.readValue, value?,
      readMembers_events members fuel depth rest (Nat.le_of_succ_le_succ enough), Option.map_map,
      Option.map_map]
    rfl

theorem readItems_events : ∀ (items : List Spelling) (fuel depth : Nat) (rest : List Event),
    (itemEvents items).length ≤ fuel →
    Json.readItems fuel depth (itemEvents items ++ rest) =
      (itemValues? depth items).map fun vs => (vs, rest)
  | items, 0, _, _, enough => absurd enough (Nat.not_le.mpr (length_itemEvents_pos items))
  | [], _ + 1, _, _, _ => rfl
  | s :: items, fuel + 1, depth, rest, enough => by
    have hitem := s.length_events_pos
    have hitems := length_itemEvents_pos items
    rw [itemEvents, List.length_append] at enough
    obtain ⟨e, es, hevents, item⟩ := s.exists_first
    have hread := readValue_events s fuel depth (itemEvents items ++ rest) (by omega)
    rw [hevents, List.cons_append] at hread
    rw [itemEvents, List.append_assoc, hevents, List.cons_append, readItems_item item, hread, itemValues?]
    cases s.value? depth with
    | none => rfl
    | some v =>
      have hrest := readItems_events items fuel depth rest (by omega)
      rw [Option.map_some, Option.bind_some, Option.bind_some]
      dsimp only
      rw [hrest, Option.map_map, Option.map_map]
      rfl

theorem readMembers_events : ∀ (members : List (String × Spelling)) (fuel depth : Nat)
    (rest : List Event), (memberEvents members).length ≤ fuel →
    Json.readMembers fuel depth (memberEvents members ++ rest) =
      (memberValues? depth members).map fun pairs => (pairs, rest)
  | [], _ + 1, _, _, _ => rfl
  | (name, s) :: members, fuel + 1, depth, rest, enough => by
    rw [memberEvents, List.length_cons, List.length_append] at enough
    rw [memberEvents, List.cons_append, List.append_assoc, readMembers_key, memberValues?,
      readValue_events s fuel depth _ (by omega)]
    cases s.value? depth with
    | none => rfl
    | some v =>
      have hrest := readMembers_events members fuel depth rest (by omega)
      rw [Option.map_some, Option.bind_some, Option.bind_some]
      dsimp only
      rw [hrest, Option.map_map, Option.map_map]
      rfl

end

/-- A spelled text has the value of its spelling. -/
theorem ofText?_of_events {content : List Char} {s : Spelling} (h : Json.events content = s.events) :
    Json.ofText? content = s.value? Json.depthLimit := by
  have hread := s.readValue_events (2 * s.events.length + 1) Json.depthLimit [] (by omega)
  rw [List.append_nil] at hread
  rw [Json.ofText?, Json.ofEvents?, h, hread]
  cases s.value? Json.depthLimit <;> rfl

/-- What is read as a value, as items or as members is spelled. -/
theorem exists_of_read (fuel : Nat) :
    (∀ {depth events v rest}, Json.readValue fuel depth events = some (v, rest) →
      ∃ s : Spelling, events = s.events ++ rest) ∧
    (∀ {depth events vs rest}, Json.readItems fuel depth events = some (vs, rest) →
      ∃ items : List Spelling, events = itemEvents items ++ rest) ∧
    ∀ {depth events pairs rest}, Json.readMembers fuel depth events = some (pairs, rest) →
      ∃ members : List (String × Spelling), events = memberEvents members ++ rest := by
  induction fuel with
  | zero => exact ⟨fun h => (by cases h), fun h => (by cases h), fun h => (by cases h)⟩
  | succ fuel ih =>
    obtain ⟨value, items, members⟩ := ih
    refine ⟨?_, ?_, ?_⟩
    · intro depth events v rest h
      cases events with
      | nil => cases h
      | cons e events =>
        cases e with
        | null =>
          obtain ⟨-, rfl⟩ := Prod.mk.inj (Option.some.inj h)
          exact ⟨null, rfl⟩
        | bool b =>
          obtain ⟨-, rfl⟩ := Prod.mk.inj (Option.some.inj h)
          exact ⟨bool b, rfl⟩
        | string text =>
          obtain ⟨-, rfl⟩ := Prod.mk.inj (Option.some.inj h)
          exact ⟨string text, rfl⟩
        | number text =>
          obtain ⟨n, -, heq⟩ := Option.map_eq_some_iff.mp h
          obtain ⟨-, rfl⟩ := Prod.mk.inj heq
          exact ⟨number text, rfl⟩
        | beginArray =>
          cases depth with
          | zero => cases h
          | succ depth =>
            obtain ⟨⟨vs, back⟩, hread, heq⟩ := Option.map_eq_some_iff.mp h
            obtain ⟨-, rfl⟩ := Prod.mk.inj heq
            obtain ⟨parts, rfl⟩ := items hread
            exact ⟨array parts, rfl⟩
        | beginObject =>
          cases depth with
          | zero => cases h
          | succ depth =>
            obtain ⟨⟨pairs, back⟩, hread, heq⟩ := Option.map_eq_some_iff.mp h
            obtain ⟨-, rfl⟩ := Prod.mk.inj heq
            obtain ⟨parts, rfl⟩ := members hread
            exact ⟨object parts, rfl⟩
        | endObject | endArray | key | fault => cases h
    · intro depth events vs rest h
      cases events with
      | nil => cases h
      | cons e events =>
        by_cases ends : e = .endArray
        · subst ends
          obtain ⟨-, rfl⟩ := Prod.mk.inj (Option.some.inj h)
          exact ⟨[], rfl⟩
        · rw [readItems_item ends] at h
          obtain ⟨⟨v, back⟩, hread, h⟩ := Option.bind_eq_some_iff.mp h
          obtain ⟨⟨vs, back'⟩, hread', heq⟩ := Option.map_eq_some_iff.mp h
          obtain ⟨-, rfl⟩ := Prod.mk.inj heq
          obtain ⟨s, hs⟩ := value hread
          obtain ⟨parts, rfl⟩ := items hread'
          exact ⟨s :: parts, by rw [hs, itemEvents, List.append_assoc]⟩
    · intro depth events pairs rest h
      cases events with
      | nil => cases h
      | cons e events =>
        cases e with
        | endObject =>
          obtain ⟨-, rfl⟩ := Prod.mk.inj (Option.some.inj h)
          exact ⟨[], rfl⟩
        | key name =>
          rw [readMembers_key] at h
          obtain ⟨⟨v, back⟩, hread, h⟩ := Option.bind_eq_some_iff.mp h
          obtain ⟨⟨pairs, back'⟩, hread', heq⟩ := Option.map_eq_some_iff.mp h
          obtain ⟨-, rfl⟩ := Prod.mk.inj heq
          obtain ⟨s, rfl⟩ := value hread
          obtain ⟨parts, rfl⟩ := members hread'
          exact ⟨(name, s) :: parts, by rw [memberEvents, List.cons_append, List.append_assoc]⟩
        | _ => cases h

theorem exists_of_ofText? {content : List Char} {v : Json} (h : Json.ofText? content = some v) :
    ∃ s : Spelling, Json.events content = s.events := by
  rw [Json.ofText?, Json.ofEvents?] at h
  split at h
  · rename_i hread
    obtain ⟨s, hs⟩ := (exists_of_read _).1 hread
    exact ⟨s, by rw [hs, List.append_nil]⟩
  · cases h

end Reading

section Parts

/-- A spelling is a part of another one, or is that one itself. -/
inductive IsPart : Spelling → Spelling → Prop
  | self (s : Spelling) : IsPart s s
  | item {s t : Spelling} {items : List Spelling} (mem : t ∈ items) (part : IsPart s t) :
      IsPart s (array items)
  | member {s t : Spelling} {name : String} {members : List (String × Spelling)}
      (mem : (name, t) ∈ members) (part : IsPart s t) : IsPart s (object members)

/-- No object names a member twice. -/
def HasUniqueNames (s : Spelling) : Prop :=
  ∀ members, IsPart (object members) s → (members.map Prod.fst).Nodup

theorem hasUniqueNames_string (text : String) : (string text).HasUniqueNames := by
  rintro members (_ | _)

theorem hasUniqueNames_array {items : List Spelling} :
    (array items).HasUniqueNames ↔ ∀ s ∈ items, s.HasUniqueNames := by
  constructor
  · exact fun h s hs members part => h members (.item hs part)
  · rintro h members (_ | ⟨mem, part⟩)
    exact h _ mem members part

theorem hasUniqueNames_object {members : List (String × Spelling)} :
    (object members).HasUniqueNames ↔
      (members.map Prod.fst).Nodup ∧ ∀ m ∈ members, m.2.HasUniqueNames := by
  constructor
  · exact fun h => ⟨h members (.self _), fun m hm others part => h others (.member hm part)⟩
  · rintro ⟨once, h⟩ others (_ | _ | ⟨mem, part⟩)
    · exact once
    · exact h _ mem others part

end Parts

section Values

variable {depth : Nat}

theorem itemValues?_eq_some_iff {items : List Spelling} {vs : List Json} :
    itemValues? depth items = some vs ↔
      List.Forall₂ (fun s v => value? depth s = some v) items vs := by
  induction items generalizing vs with
  | nil => simp [itemValues?, eq_comm]
  | cons s items ih =>
    rw [itemValues?, List.forall₂_cons_left_iff]
    simp only [Option.bind_eq_some_iff, Option.map_eq_some_iff, ih]
    constructor
    · rintro ⟨v, hv, vs, hvs, rfl⟩
      exact ⟨v, vs, hv, hvs, rfl⟩
    · rintro ⟨v, vs, hv, hvs, rfl⟩
      exact ⟨v, hv, vs, hvs, rfl⟩

theorem memberValues?_eq_some_iff {members : List (String × Spelling)} {pairs : List (String × Json)} :
    memberValues? depth members = some pairs ↔
      List.Forall₂ (fun m p => m.1 = p.1 ∧ value? depth m.2 = some p.2) members pairs := by
  induction members generalizing pairs with
  | nil => simp [memberValues?, eq_comm]
  | cons m members ih =>
    obtain ⟨name, s⟩ := m
    rw [memberValues?, List.forall₂_cons_left_iff]
    simp only [Option.bind_eq_some_iff, Option.map_eq_some_iff, ih]
    constructor
    · rintro ⟨v, hv, pairs, hpairs, rfl⟩
      exact ⟨(name, v), pairs, ⟨rfl, hv⟩, hpairs, rfl⟩
    · rintro ⟨⟨n, v⟩, pairs, ⟨rfl, hv⟩, hpairs, rfl⟩
      exact ⟨v, hv, pairs, hpairs, rfl⟩

theorem names_eq_of_forall₂ {members : List (String × Spelling)} {pairs : List (String × Json)}
    (h : List.Forall₂ (fun m p => m.1 = p.1 ∧ value? depth m.2 = some p.2) members pairs) :
    members.map Prod.fst = pairs.map Prod.fst := by
  rw [← List.forall₂_eq_eq_eq, List.forall₂_map_left_iff, List.forall₂_map_right_iff]
  exact h.imp fun _ _ => And.left

/-- Spellings that differ by the places of members in one of their objects. -/
inductive Reordered : Spelling → Spelling → Prop
  | members {members others : List (String × Spelling)} (perm : members.Perm others) :
      Reordered (object members) (object others)
  | item {s t : Spelling} (before after : List Spelling) (part : Reordered s t) :
      Reordered (array (before ++ s :: after)) (array (before ++ t :: after))
  | member {s t : Spelling} (before : List (String × Spelling)) (name : String)
      (after : List (String × Spelling)) (part : Reordered s t) :
      Reordered (object (before ++ (name, s) :: after)) (object (before ++ (name, t) :: after))

theorem value?_of_perm {members others : List (String × Spelling)} (perm : members.Perm others)
    (once : (members.map Prod.fst).Nodup) {v : Json} (h : (object members).value? depth = some v) :
    (object others).value? depth = some v := by
  cases depth with
  | zero => cases h
  | succ depth =>
    obtain ⟨pairs, hpairs, rfl⟩ := Option.map_eq_some_iff.mp h
    have each := memberValues?_eq_some_iff.mp hpairs
    obtain ⟨pairs', each', perm'⟩ : Relation.Comp (List.Forall₂ _) List.Perm others pairs :=
      List.perm_comp_forall₂ perm.symm each
    have once' : (pairs'.map Prod.fst).Nodup :=
      names_eq_of_forall₂ each' ▸ (perm.map Prod.fst).nodup once
    rw [value?, memberValues?_eq_some_iff.mpr each', Option.map_some, Members.ofPairs_eq_of_perm once' perm']

theorem itemValues?_congr {s t : Spelling} (same : t.value? depth = s.value? depth)
    (before after : List Spelling) :
    itemValues? depth (before ++ t :: after) = itemValues? depth (before ++ s :: after) := by
  induction before with
  | nil => rw [List.nil_append, List.nil_append, itemValues?, itemValues?, same]
  | cons r before ih => rw [List.cons_append, List.cons_append, itemValues?, itemValues?, ih]

theorem memberValues?_congr {s t : Spelling} (same : t.value? depth = s.value? depth)
    (before : List (String × Spelling)) (name : String) (after : List (String × Spelling)) :
    memberValues? depth (before ++ (name, t) :: after) =
      memberValues? depth (before ++ (name, s) :: after) := by
  induction before with
  | nil => rw [List.nil_append, List.nil_append, memberValues?, memberValues?, same]
  | cons r before ih => rw [List.cons_append, List.cons_append, memberValues?, memberValues?, ih]

theorem Reordered.hasUniqueNames {s t : Spelling} (reordered : Reordered s t)
    (unique : s.HasUniqueNames) : t.HasUniqueNames := by
  induction reordered with
  | members perm =>
    obtain ⟨once, unique⟩ := hasUniqueNames_object.mp unique
    exact hasUniqueNames_object.mpr ⟨(perm.map Prod.fst).nodup once, fun m hm =>
      unique m (perm.mem_iff.mpr hm)⟩
  | item before after _ ih =>
    simp only [hasUniqueNames_array, List.forall_mem_append, List.forall_mem_cons] at unique ⊢
    exact ⟨unique.1, ih unique.2.1, unique.2.2⟩
  | member before name after _ ih =>
    simp only [hasUniqueNames_object, List.forall_mem_append, List.forall_mem_cons, List.map_append,
      List.map_cons] at unique ⊢
    exact ⟨unique.1, unique.2.1, ih unique.2.2.1, unique.2.2.2⟩

/-- The places of members with different names do not matter for the value. -/
theorem Reordered.value?_eq {s t : Spelling} (reordered : Reordered s t) (unique : s.HasUniqueNames)
    (depth : Nat) : t.value? depth = s.value? depth := by
  induction reordered generalizing depth with
  | members perm =>
    obtain ⟨once, -⟩ := hasUniqueNames_object.mp unique
    have once' := (perm.map Prod.fst).nodup once
    exact Option.ext fun v => ⟨value?_of_perm perm.symm once', value?_of_perm perm once⟩
  | item before after _ ih =>
    have unique_part := hasUniqueNames_array.mp unique _ (List.mem_append_right _ (List.mem_cons_self ..))
    cases depth with
    | zero => rfl
    | succ depth => rw [value?, value?, itemValues?_congr (ih unique_part depth)]
  | member before name after _ ih =>
    obtain ⟨-, unique_members⟩ := hasUniqueNames_object.mp unique
    have unique_part := unique_members _ (List.mem_append_right _ (List.mem_cons_self ..))
    cases depth with
    | zero => rfl
    | succ depth => rw [value?, value?, memberValues?_congr (ih unique_part depth)]

/-- However often members change places, names stay unique and the value stays. -/
theorem value?_eq_of_reorderings {s t : Spelling} (reordered : Relation.ReflTransGen Reordered s t)
    (unique : s.HasUniqueNames) (depth : Nat) : t.value? depth = s.value? depth := by
  have stays : t.HasUniqueNames ∧ t.value? depth = s.value? depth := by
    induction reordered with
    | refl => exact ⟨unique, rfl⟩
    | tail _ step ih =>
      exact ⟨step.hasUniqueNames ih.1, (step.value?_eq ih.1 depth).trans ih.2⟩
  exact stays.2

end Values

end Spelling

end SparqlConformance
