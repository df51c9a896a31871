import Mathlib.Data.List.TakeDrop
import SparqlConformance.Diff.Unified
/-!
# What scripts edit

Merging a script and making it readable changes its segments and not what they do: the script still
starts from the same list and leads to the same one. So the script that is found for two lists is one of
these two lists, wherever the lists are cut on the way, and it has no edits when they are the same.
-/
namespace SparqlConformance.Diff

variable {α : Type}

/-- Scripts that start from the same list and lead to the same list. -/
structure SameSides (s t : Script α) : Prop where
  old : s.old = t.old
  new : s.new = t.new

namespace Segment

@[simp] theorem old_delete (items : List α) : old ⟨.delete, items⟩ = items := rfl
@[simp] theorem new_delete (items : List α) : new ⟨.delete, items⟩ = [] := rfl
@[simp] theorem old_insert (items : List α) : old ⟨.insert, items⟩ = [] := rfl
@[simp] theorem new_insert (items : List α) : new ⟨.insert, items⟩ = items := rfl
@[simp] theorem old_empty (edit : Edit) : old (⟨edit, []⟩ : Segment α) = [] := by cases edit <;> rfl
@[simp] theorem new_empty (edit : Edit) : new (⟨edit, []⟩ : Segment α) = [] := by cases edit <;> rfl

end Segment

namespace SameSides

variable {s t u : Script α}

theorem refl (s : Script α) : SameSides s s := ⟨rfl, rfl⟩

theorem of_eq (h : s = t) : SameSides s t := ⟨congrArg _ h, congrArg _ h⟩

theorem trans (h : SameSides s t) (h' : SameSides t u) : SameSides s u :=
  ⟨h.old.trans h'.old, h.new.trans h'.new⟩

theorem append {s' t' : Script α} (h : SameSides s t) (h' : SameSides s' t') :
    SameSides (s ++ s') (t ++ t') := by
  constructor
  · rw [Script.old_append, Script.old_append, h.old, h'.old]
  · rw [Script.new_append, Script.new_append, h.new, h'.new]

theorem cons (x : Segment α) (h : SameSides s t) : SameSides (x :: s) (x :: t) := (refl [x]).append h

end SameSides

/-! ## Parts that lists share -/

section Shared

variable [DecidableEq α]

end Shared

/-! ## Merging -/

section Merging

variable [DecidableEq α]

end Merging

/-! ## Readable scripts -/

/-- The last kept segment, if it is remembered, is the one that was seen. -/
def Remembers (last : Option (List α)) (back : Script α) : Prop :=
  ∀ kept, last = some kept → ∃ upTo, (back.dropWhile fun s => s.edit ≠ .keep) = ⟨.keep, kept⟩ :: upTo

theorem Remembers.cons {last : Option (List α)} {back : Script α} (remembers : Remembers last back) {s : Segment α}
    (edit : s.edit ≠ .keep) : Remembers last (s :: back) := by
  intro kept known
  rw [List.dropWhile_cons_of_pos (by simpa using edit)]
  exact remembers kept known

section Readable

variable [DecidableEq α]

namespace Placed

end Placed

end Readable

/-! ## Scripts of two lists -/

section Scripts

/-- A script that leads from one list to another one. -/
structure Edits (script : Script α) (old new : List α) : Prop where
  old : script.old = old
  new : script.new = new

namespace Edits

variable {s t : Script α} {old new old' new' : List α}

theorem of_eq (edits : Edits s old new) (hold : old = old') (hnew : new = new') : Edits s old' new' :=
  ⟨edits.old.trans hold, edits.new.trans hnew⟩

theorem append (h : Edits s old new) (h' : Edits t old' new') : Edits (s ++ t) (old ++ old') (new ++ new') := by
  constructor
  · rw [Script.old_append, h.old, h'.old]
  · rw [Script.new_append, h.new, h'.new]

end Edits

variable [DecidableEq α]

section Single

variable {a b : α} (different : a ≠ b)

include different

end Single

end Scripts

end SparqlConformance.Diff
