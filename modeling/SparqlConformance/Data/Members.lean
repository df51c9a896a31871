/-!
# Members

Pairs of a name and a value in increasing order of the names, each name once. Two such lists are equal
exactly when they give the same names the same values.
-/
namespace SparqlConformance

variable {β : Type}

/-- Pairs in increasing order of their names. -/
def Increasing (members : List (String × β)) : Prop := members.Pairwise fun a b => a.1 < b.1

namespace Members

/-- Gives a name a value; a value it had before is replaced. -/
def insert (name : String) (value : β) : List (String × β) → List (String × β)
  | [] => [(name, value)]
  | (n, v) :: rest =>
    if name < n then (name, value) :: (n, v) :: rest
    else if n < name then (n, v) :: insert name value rest
    else (name, value) :: rest

theorem name_of_mem_insert {name : String} {value : β} {members : List (String × β)} {c : String × β}
    (h : c ∈ insert name value members) : c.1 = name ∨ c ∈ members := by
  induction members with
  | nil => exact Or.inl (by simp [insert] at h; simp [h])
  | cons d rest ih =>
    simp only [insert] at h
    split at h
    · rcases List.mem_cons.mp h with rfl | h
      · exact Or.inl rfl
      · exact Or.inr h
    · split at h
      · rcases List.mem_cons.mp h with rfl | h
        · exact Or.inr (List.mem_cons_self ..)
        · exact (ih h).imp_right (List.mem_cons_of_mem _)
      · rcases List.mem_cons.mp h with rfl | h
        · exact Or.inl rfl
        · exact Or.inr (List.mem_cons_of_mem _ h)

theorem increasing_insert (name : String) (value : β) {members : List (String × β)}
    (h : Increasing members) : Increasing (insert name value members) := by
  induction members with
  | nil => simp [insert, Increasing]
  | cons d rest ih =>
    obtain ⟨n, v⟩ := d
    have hd := List.pairwise_cons.mp h
    simp only [insert]
    split
    · rename_i hlt
      refine List.pairwise_cons.mpr ⟨?_, h⟩
      intro c hc
      rcases List.mem_cons.mp hc with rfl | hc
      · exact hlt
      · exact String.lt_trans hlt (hd.1 c hc)
    · split
      · rename_i hgt
        refine List.pairwise_cons.mpr ⟨?_, ih hd.2⟩
        intro c hc
        rcases name_of_mem_insert hc with hn | hc
        · simpa [hn] using hgt
        · exact hd.1 c hc
      · rename_i h1 h2
        have hn : n = name := String.le_antisymm (String.not_lt.mp h1) (String.not_lt.mp h2)
        subst hn
        exact List.pairwise_cons.mpr hd

/-- The members of a list of pairs, where later pairs win. -/
def ofPairs (pairs : List (String × β)) : List (String × β) :=
  pairs.foldl (fun members (n, v) => insert n v members) []

end Members

end SparqlConformance
