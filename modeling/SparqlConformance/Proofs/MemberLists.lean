import SparqlConformance.Data.Members
import SparqlConformance.Proofs.KeyedLists
/-!
# Lists of members

What stands in a list of members, and what is found under a name, once members have been changed, inserted
or put together from pairs. Pairs with different names give the same members in any order, and members
that are put together again stay what they are.
-/
namespace SparqlConformance

variable {β γ : Type}

theorem lookup_cons_eq_ite (name other : String) (value : β) (members : List (String × β)) :
    ((name, value) :: members).lookup other =
      if other = name then some value else members.lookup other := by
  rw [List.lookup_cons]
  by_cases same : other = name
  · rw [if_pos same, beq_iff_eq.mpr same]
  · rw [if_neg same, beq_eq_false_iff_ne.mpr same]

theorem lookup_map_snd (f : β → γ) (name : String) (members : List (String × β)) :
    (members.map fun (n, v) => (n, f v)).lookup name = (members.lookup name).map f := by
  induction members with
  | nil => rfl
  | cons b members ih =>
    obtain ⟨n, v⟩ := b
    rw [List.map_cons, lookup_cons_eq_ite, lookup_cons_eq_ite, ih]
    split <;> rfl

theorem mem_of_lookup {name : String} {value : β} {members : List (String × β)}
    (h : members.lookup name = some value) : (name, value) ∈ members := by
  induction members with
  | nil => cases h
  | cons b members ih =>
    obtain ⟨n, v⟩ := b
    rw [lookup_cons_eq_ite] at h
    split at h
    · rename_i same
      rw [same, Option.some.inj h]
      exact List.mem_cons_self ..
    · exact List.mem_cons_of_mem _ (ih h)

/-- Names stand once, so each member is the one that is found under its name. -/
theorem Increasing.lookup_eq_some_iff {members : List (String × β)} (increasing : Increasing members)
    {name : String} {value : β} : members.lookup name = some value ↔ (name, value) ∈ members := by
  refine ⟨mem_of_lookup, fun h => ?_⟩
  induction members with
  | nil => cases h
  | cons b rest ih =>
    obtain ⟨n, v⟩ := b
    obtain ⟨first, increasing⟩ := List.pairwise_cons.mp increasing
    rw [lookup_cons_eq_ite]
    rcases List.mem_cons.mp h with heq | hmem
    · obtain ⟨rfl, rfl⟩ := Prod.mk.inj heq
      rw [if_pos rfl]
    · have apart : name ≠ n := by
        rintro rfl
        exact String.lt_irrefl _ (first (name, value) hmem)
      rw [if_neg apart]
      exact ih increasing hmem

theorem Increasing.nodup_names {members : List (String × β)} (increasing : Increasing members) :
    (members.map Prod.fst).Nodup := by
  refine List.pairwise_map.mpr (increasing.imp fun {a b} hlt heq => ?_)
  rw [heq] at hlt
  exact String.lt_irrefl _ hlt

/-- Changed values leave the names where they are. -/
theorem Increasing.map {members : List (String × β)} (increasing : Increasing members)
    {f : String × β → String × γ} (names : ∀ m, (f m).1 = m.1) : Increasing (members.map f) := by
  refine List.pairwise_map.mpr (increasing.imp fun {a b} hlt => ?_)
  rw [names, names]
  exact hlt

namespace Members

theorem lookup_insert (name other : String) (value : β) (members : List (String × β)) :
    (insert name value members).lookup other =
      if other = name then some value else members.lookup other := by
  induction members with
  | nil => exact lookup_cons_eq_ite name other value []
  | cons member members ih =>
    obtain ⟨n, v⟩ := member
    unfold insert
    split
    · exact lookup_cons_eq_ite name other value _
    · split
      · rename_i before
        rw [lookup_cons_eq_ite, lookup_cons_eq_ite, ih]
        by_cases same : other = n
        · subst same
          have apart : other ≠ name := fun h => String.lt_irrefl _ (h ▸ before)
          rw [if_pos rfl, if_neg apart, if_pos rfl]
        · rw [if_neg same, if_neg same]
      · rename_i after before
        obtain rfl := String.le_antisymm (String.not_lt.mp before) (String.not_lt.mp after)
        rw [lookup_cons_eq_ite, lookup_cons_eq_ite]
        by_cases same : other = name
        · rw [if_pos same, if_pos same]
        · rw [if_neg same, if_neg same, if_neg same]

theorem mem_of_mem_insert {name : String} {value : β} {members : List (String × β)} {m : String × β}
    (h : m ∈ insert name value members) : m = (name, value) ∨ m ∈ members := by
  induction members with
  | nil => exact Or.inl (List.mem_singleton.mp h)
  | cons member members ih =>
    unfold insert at h
    split at h
    · exact List.mem_cons.mp h
    · split at h
      · rcases List.mem_cons.mp h with rfl | h
        · exact Or.inr (List.mem_cons_self ..)
        · exact (ih h).imp_right (List.mem_cons_of_mem _)
      · exact (List.mem_cons.mp h).imp_right (List.mem_cons_of_mem _)

theorem mem_insert {name : String} {value : β} {members : List (String × β)}
    (increasing : Increasing members) {m : String × β} :
    m ∈ insert name value members ↔ m = (name, value) ∨ m.1 ≠ name ∧ m ∈ members := by
  obtain ⟨n, v⟩ := m
  rw [← (increasing_insert name value increasing).lookup_eq_some_iff, lookup_insert,
    ← increasing.lookup_eq_some_iff]
  by_cases same : n = name
  · subst same
    simp [eq_comm]
  · simp [same]

theorem insert_insert (name : String) (value other : β) (members : List (String × β)) :
    insert name value (insert name other members) = insert name value members := by
  induction members with
  | nil => simp [insert]
  | cons member members ih =>
    obtain ⟨n, v⟩ := member
    by_cases before : name < n
    · simp [insert, before]
    · by_cases after : n < name
      · simp [insert, before, after, ih]
      · simp [insert, before, after]

/-- Inserting a member that is there changes nothing. -/
theorem insert_of_lookup {name : String} {value : β} {members : List (String × β)}
    (increasing : Increasing members) (found : members.lookup name = some value) :
    insert name value members = members := by
  refine eq_of_mem_iff_of_increasing (increasing_insert _ _ increasing) increasing fun m => ?_
  rw [mem_insert increasing]
  constructor
  · rintro (rfl | ⟨-, hm⟩)
    · exact mem_of_lookup found
    · exact hm
  · intro hm
    by_cases same : m.1 = name
    · have value_eq := increasing.lookup_eq_some_iff.mpr (show (name, m.2) ∈ members from same ▸ hm)
      exact .inl (Prod.ext same (Option.some.inj (value_eq.symm.trans found)))
    · exact .inr ⟨same, hm⟩

theorem map_insert (f : β → γ) (name : String) (value : β) (members : List (String × β)) :
    (insert name value members).map (fun (n, v) => (n, f v)) =
      insert name (f value) (members.map fun (n, v) => (n, f v)) := by
  induction members with
  | nil => rfl
  | cons member members ih =>
    obtain ⟨n, v⟩ := member
    rw [insert, List.map_cons, insert]
    split
    · rfl
    · split
      · rw [List.map_cons, ih]
      · rfl

/-- Where the name is dropped, so is what was inserted under it. -/
theorem filter_insert {name : String} {p : String → Bool} (drops : p name = false) (value : β)
    (members : List (String × β)) :
    (insert name value members).filter (fun m => p m.1) = members.filter fun m => p m.1 := by
  induction members with
  | nil => simp [insert, drops]
  | cons member members ih =>
    unfold insert
    split
    · exact List.filter_cons_of_neg (by simp [drops])
    · split
      · rw [List.filter_cons, List.filter_cons, ih]
      · rename_i after before
        obtain rfl := String.le_antisymm (String.not_lt.mp before) (String.not_lt.mp after)
        simp [drops]

theorem increasing_foldl_insert (pairs : List (String × β)) {members : List (String × β)}
    (increasing : Increasing members) :
    Increasing (pairs.foldl (fun members (n, v) => insert n v members) members) := by
  induction pairs generalizing members with
  | nil => exact increasing
  | cons pair pairs ih => exact ih (increasing_insert _ _ increasing)

theorem increasing_ofPairs (pairs : List (String × β)) : Increasing (ofPairs pairs) :=
  increasing_foldl_insert pairs List.Pairwise.nil

theorem mem_foldl_insert {pairs : List (String × β)} (once : (pairs.map Prod.fst).Nodup)
    {members : List (String × β)} (increasing : Increasing members) {m : String × β} :
    m ∈ pairs.foldl (fun members (n, v) => insert n v members) members ↔
      m ∈ pairs ∨ m.1 ∉ pairs.map Prod.fst ∧ m ∈ members := by
  induction pairs generalizing members with
  | nil => simp
  | cons pair pairs ih =>
    obtain ⟨n, v⟩ := pair
    obtain ⟨apart, once⟩ := List.nodup_cons.mp once
    rw [List.foldl_cons, ih once (increasing_insert n v increasing), mem_insert increasing]
    have kept : m = (n, v) → m.1 ∉ pairs.map Prod.fst := by
      rintro rfl
      exact apart
    simp only [List.mem_cons, List.map_cons, not_or]
    tauto

/-- Members of different names are what they were put together from. -/
theorem mem_ofPairs {pairs : List (String × β)} (once : (pairs.map Prod.fst).Nodup) {m : String × β} :
    m ∈ ofPairs pairs ↔ m ∈ pairs := by
  rw [ofPairs, mem_foldl_insert once List.Pairwise.nil]
  simp

theorem mem_of_mem_ofPairs {pairs : List (String × β)} {m : String × β} (h : m ∈ ofPairs pairs) :
    m ∈ pairs := by
  have known : ∀ (pairs members : List (String × β)),
      m ∈ pairs.foldl (fun members (n, v) => insert n v members) members → m ∈ pairs ∨ m ∈ members := by
    intro pairs
    induction pairs with
    | nil => exact fun _ => Or.inr
    | cons pair pairs ih =>
      intro members h
      rcases ih _ h with h | h
      · exact Or.inl (List.mem_cons_of_mem _ h)
      · rcases mem_of_mem_insert h with rfl | h
        · exact Or.inl (List.mem_cons_self ..)
        · exact Or.inr h
  exact (known pairs [] h).resolve_right List.not_mem_nil

theorem ofPairs_eq_of_perm {pairs others : List (String × β)} (once : (pairs.map Prod.fst).Nodup)
    (perm : pairs.Perm others) : ofPairs pairs = ofPairs others := by
  refine eq_of_mem_iff_of_increasing (increasing_ofPairs _) (increasing_ofPairs _)
    fun m => ?_
  rw [mem_ofPairs once, mem_ofPairs ((perm.map Prod.fst).nodup once), perm.mem_iff]

theorem ofPairs_of_increasing {members : List (String × β)} (increasing : Increasing members) :
    ofPairs members = members :=
  eq_of_mem_iff_of_increasing (increasing_ofPairs _) increasing fun _ =>
    mem_ofPairs increasing.nodup_names

end Members

end SparqlConformance
