import Mathlib.Data.List.Basic
/-!
# Lists with keys

Facts on lists that are put in the order of texts. A list with increasing keys is told by its members.
Sorting by a key moves classes of equal keys and leaves each class in its order, so a sorted list is
told by its classes.
-/
namespace SparqlConformance

/-- Lists with equal images have every other image in common that the first one tells. -/
theorem map_eq_of_map_eq {α β γ δ : Type} {f : α → γ} {g : β → γ} {p : α → δ} {q : β → δ}
    {as : List α} {bs : List β} (same : as.map f = bs.map g)
    (told : ∀ a ∈ as, ∀ b ∈ bs, f a = g b → p a = q b) : as.map p = bs.map q := by
  induction as generalizing bs with
  | nil =>
    rw [List.map_eq_nil_iff.mp same.symm]
    rfl
  | cons a as ih =>
    cases bs with
    | nil => simp at same
    | cons b bs =>
      obtain ⟨hhead, htail⟩ := List.cons.inj same
      have hab : p a = q b := told a (List.mem_cons_self ..) b (List.mem_cons_self ..) hhead
      have hrest : as.map p = bs.map q := ih htail fun a ha b hb =>
        told a (List.mem_cons_of_mem _ ha) b (List.mem_cons_of_mem _ hb)
      rw [List.map_cons, List.map_cons, hab, hrest]

/-- Lists with equal images, where the image of a member tells its partner. -/
theorem eq_map_of_map_eq {α β γ : Type} {f : α → γ} {g : β → γ} {h : α → β} {as : List α}
    {bs : List β} (same : as.map f = bs.map g)
    (unique : ∀ a ∈ as, ∀ b ∈ bs, f a = g b → b = h a) : bs = as.map h := by
  have himage : as.map h = bs.map id := map_eq_of_map_eq same fun a ha b hb heq =>
    (unique a ha b hb heq).symm
  rw [himage, List.map_id]

theorem nodup_of_increasing {α : Type} {key : α → String} {as : List α}
    (increasing : as.Pairwise fun a b => key a < key b) : as.Nodup := by
  refine increasing.imp ?_
  rintro a b hlt rfl
  exact String.lt_irrefl _ hlt

/-- Lists with increasing keys are told by their members. -/
theorem eq_of_mem_iff_of_increasing {α : Type} {key : α → String} {as bs : List α}
    (increasing : as.Pairwise fun a b => key a < key b)
    (increasing' : bs.Pairwise fun a b => key a < key b) (h : ∀ x, x ∈ as ↔ x ∈ bs) : as = bs := by
  have asym : ∀ a b, key a < key b → key b < key a → a = b := fun a b hab hba =>
    absurd (String.lt_trans hab hba) (String.lt_irrefl _)
  have perm : as.Perm bs := (List.perm_ext_iff_of_nodup (nodup_of_increasing increasing)
    (nodup_of_increasing increasing')).mpr h
  exact perm.eq_of_pairwise (fun a b _ _ => asym a b) increasing increasing'

section Sorting

variable {α : Type} (key : α → String)

theorem le_key_trans (a b c : α) (hab : decide (key a ≤ key b) = true)
    (hbc : decide (key b ≤ key c) = true) : decide (key a ≤ key c) = true :=
  decide_eq_true (String.le_trans (of_decide_eq_true hab) (of_decide_eq_true hbc))

theorem le_key_total (a b : α) : (decide (key a ≤ key b) || decide (key b ≤ key a)) = true := by
  rcases String.le_total (key a) (key b) with h | h <;> simp [h]

theorem sorted_mergeSort (xs : List α) :
    (xs.mergeSort fun a b => decide (key a ≤ key b)).Pairwise fun a b => key a ≤ key b :=
  (List.pairwise_mergeSort (le_key_trans key) (le_key_total key) xs).imp of_decide_eq_true

/-- Sorting along with the keys is sorting by the keys. -/
theorem mergeSort_keyed (xs : List α) :
    ((xs.map fun x => (key x, x)).mergeSort fun a b => decide (a.1 ≤ b.1)).map Prod.snd =
      xs.mergeSort fun a b => decide (key a ≤ key b) := by
  rw [List.map_mergeSort (s := fun a b => decide (key a ≤ key b)), List.map_map]
  · exact congrArg (List.mergeSort · _) (List.map_id _)
  · intro a ha b hb
    obtain ⟨x, _, rfl⟩ := List.mem_map.mp ha
    obtain ⟨y, _, rfl⟩ := List.mem_map.mp hb
    rfl

end Sorting

section Classes

variable {α γ κ : Type} [DecidableEq κ] {key : α → κ}

/-- The members with one key. -/
def keyClass (key : α → κ) (k : κ) (xs : List α) : List α := xs.filter fun x => decide (key x = k)

theorem keyClass_cons_self (x : α) (xs : List α) :
    keyClass key (key x) (x :: xs) = x :: keyClass key (key x) xs := by
  simp [keyClass]

theorem keyClass_cons_ne {x : α} {k : κ} (h : key x ≠ k) (xs : List α) :
    keyClass key k (x :: xs) = keyClass key k xs := by
  simp [keyClass, h]

theorem mem_keyClass {k : κ} {xs : List α} {x : α} :
    x ∈ keyClass key k xs ↔ x ∈ xs ∧ key x = k := by
  simp [keyClass]

theorem map_keyClass_of_map_eq {p q : α → γ} {xs ys : List α}
    (h : xs.map (fun x => (key x, p x)) = ys.map fun y => (key y, q y)) (k : κ) :
    (keyClass key k xs).map p = (keyClass key k ys).map q := by
  have hpairs := congrArg (fun l : List (κ × γ) =>
    (l.filter fun a => decide (a.1 = k)).map Prod.snd) h
  simpa only [List.filter_map, List.map_map, Function.comp_def, keyClass] using hpairs

/-- Only which members have equal keys matters, not what the keys are. -/
theorem keyClasses_of_same_ties {κ' : Type} [DecidableEq κ'] {key' : α → κ'} {p q : α → γ}
    {xs ys : List α}
    (ties : ∀ a, a ∈ xs ∨ a ∈ ys → ∀ b, b ∈ xs ∨ b ∈ ys → (key a = key b ↔ key' a = key' b))
    (h : ∀ k, (keyClass key k xs).map p = (keyClass key k ys).map q) (k' : κ') :
    (keyClass key' k' xs).map p = (keyClass key' k' ys).map q := by
  by_cases some_member : ∃ a, (a ∈ xs ∨ a ∈ ys) ∧ key' a = k'
  · obtain ⟨a, ha, rfl⟩ := some_member
    have hxs : keyClass key' (key' a) xs = keyClass key (key a) xs :=
      List.filter_congr fun b hb => decide_eq_decide.mpr (ties b (Or.inl hb) a ha).symm
    have hys : keyClass key' (key' a) ys = keyClass key (key a) ys :=
      List.filter_congr fun b hb => decide_eq_decide.mpr (ties b (Or.inr hb) a ha).symm
    rw [hxs, hys]
    exact h (key a)
  · have hxs : keyClass key' k' xs = [] := List.eq_nil_iff_forall_not_mem.mpr fun a ha =>
      some_member ⟨a, Or.inl (mem_keyClass.mp ha).1, (mem_keyClass.mp ha).2⟩
    have hys : keyClass key' k' ys = [] := List.eq_nil_iff_forall_not_mem.mpr fun a ha =>
      some_member ⟨a, Or.inr (mem_keyClass.mp ha).1, (mem_keyClass.mp ha).2⟩
    rw [hxs, hys]
    rfl

/-- Lists whose keys stand in the same order are told by their classes. -/
theorem map_eq_of_map_key_eq {α' : Type} {key' : α' → κ} {p : α → γ} {q : α' → γ} {xs : List α}
    {ys : List α'} (keys : xs.map key = ys.map key')
    (classes : ∀ k, (keyClass key k xs).map p = (keyClass key' k ys).map q) : xs.map p = ys.map q := by
  induction xs generalizing ys with
  | nil =>
    rw [List.map_eq_nil_iff.mp keys.symm]
    rfl
  | cons x xs ih =>
    cases ys with
    | nil => cases keys
    | cons y ys =>
      obtain ⟨hkey, hkeys⟩ := List.cons.inj keys
      have hclass := classes (key x)
      rw [keyClass_cons_self, hkey, keyClass_cons_self] at hclass
      obtain ⟨hvalue, hrest⟩ := List.cons.inj hclass
      have hclasses : ∀ k, (keyClass key k xs).map p = (keyClass key' k ys).map q := by
        intro k
        by_cases hk : key' y = k
        · rw [← hk]
          exact hrest
        · have h := classes k
          rwa [keyClass_cons_ne (hkey ▸ hk), keyClass_cons_ne hk] at h
      rw [List.map_cons, List.map_cons, hvalue, ih hkeys hclasses]

end Classes

section SortedClasses

variable {α γ : Type} {key : α → String}

/-- The head of a sorted list has the smallest key that any class has. -/
theorem head_le_of_keyClass {x : α} {xs : List α}
    (sorted : (x :: xs).Pairwise fun a b => key a ≤ key b) {k : String}
    (h : keyClass key k (x :: xs) ≠ []) : key x ≤ k := by
  obtain ⟨z, hz⟩ := List.exists_mem_of_ne_nil _ h
  obtain ⟨hmem, rfl⟩ := mem_keyClass.mp hz
  rcases List.mem_cons.mp hmem with rfl | hmem
  · exact String.le_refl _
  · exact (List.pairwise_cons.mp sorted).1 z hmem

/-- Sorted lists are put together from their classes in one way only. -/
theorem map_eq_of_keyClasses {p q : α → γ} {xs ys : List α}
    (sorted_xs : xs.Pairwise fun a b => key a ≤ key b)
    (sorted_ys : ys.Pairwise fun a b => key a ≤ key b)
    (classes : ∀ k, (keyClass key k xs).map p = (keyClass key k ys).map q) :
    xs.map (fun x => (key x, p x)) = ys.map fun y => (key y, q y) := by
  induction xs generalizing ys with
  | nil =>
    cases ys with
    | nil => rfl
    | cons y ys =>
      have h := classes (key y)
      rw [keyClass_cons_self] at h
      cases h
  | cons x xs ih =>
    cases ys with
    | nil =>
      have h := classes (key x)
      rw [keyClass_cons_self] at h
      cases h
    | cons y ys =>
      -- each head has a member of its key on the other side, so neither key is smaller
      have nonempty_y : keyClass key (key x) (y :: ys) ≠ [] := by
        intro hnil
        have h := classes (key x)
        rw [hnil, keyClass_cons_self] at h
        cases h
      have nonempty_x : keyClass key (key y) (x :: xs) ≠ [] := by
        intro hnil
        have h := classes (key y)
        rw [hnil, keyClass_cons_self] at h
        cases h
      have hkey : key x = key y := String.le_antisymm (head_le_of_keyClass sorted_xs nonempty_x)
        (head_le_of_keyClass sorted_ys nonempty_y)
      have hclass := classes (key x)
      rw [keyClass_cons_self, hkey, keyClass_cons_self] at hclass
      obtain ⟨hvalue, hrest⟩ := List.cons.inj hclass
      have hclasses : ∀ k, (keyClass key k xs).map p = (keyClass key k ys).map q := by
        intro k
        by_cases hk : key y = k
        · rw [← hk]
          exact hrest
        · have h := classes k
          rwa [keyClass_cons_ne (hkey ▸ hk), keyClass_cons_ne hk] at h
      rw [List.map_cons, List.map_cons, hkey, hvalue,
        ih (List.pairwise_cons.mp sorted_xs).2 (List.pairwise_cons.mp sorted_ys).2 hclasses]

end SortedClasses

/-- Sorting keeps the order of the members with one key. -/
theorem keyClass_mergeSort {α : Type} (key : α → String) (k : String) (xs : List α) :
    keyClass key k (xs.mergeSort fun a b => decide (key a ≤ key b)) = keyClass key k xs := by
  have hsame : (keyClass key k xs).Pairwise fun a b => decide (key a ≤ key b) = true := by
    apply List.pairwise_of_forall_mem_list
    intro a ha b hb
    rw [(mem_keyClass.mp ha).2, (mem_keyClass.mp hb).2]
    exact decide_eq_true (String.le_refl k)
  have hsub := List.sublist_mergeSort (le_key_trans key) (le_key_total key) hsame
    List.filter_sublist
  have hfilter := hsub.filter fun a => decide (key a = k)
  rw [keyClass, List.filter_filter, List.filter_congr (fun _ _ => Bool.and_self _)] at hfilter
  exact (hfilter.eq_of_length ((List.mergeSort_perm _ _).filter _).length_eq.symm).symm

end SparqlConformance
