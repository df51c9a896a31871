/-!
# Edit scripts

A script tells how one list becomes another one, as a sequence of segments that are kept, deleted or
inserted. It determines both lists: the old one is what is kept or deleted, the new one what is kept or
inserted. Segments may be empty.
-/
namespace SparqlConformance.Diff

inductive Edit
  | keep
  | delete
  | insert
  deriving DecidableEq, Repr, Inhabited

structure Segment (α : Type) where
  edit : Edit
  items : List α
  deriving DecidableEq, Repr

abbrev Script (α : Type) := List (Segment α)

variable {α : Type}

namespace Segment

def old (s : Segment α) : List α := if s.edit = .insert then [] else s.items

def new (s : Segment α) : List α := if s.edit = .delete then [] else s.items

end Segment

namespace Script

/-- The list that a script starts from. -/
def old (s : Script α) : List α := s.flatMap Segment.old

/-- The list that a script leads to. -/
def new (s : Script α) : List α := s.flatMap Segment.new

@[simp] theorem old_append (s t : Script α) : old (s ++ t) = old s ++ old t := by
  simp [old]

@[simp] theorem new_append (s t : Script α) : new (s ++ t) = new s ++ new t := by
  simp [new]

/-- The items one by one. -/
def items (s : Script α) : List (Edit × α) := s.flatMap fun x => x.items.map fun a => (x.edit, a)

end Script

variable [DecidableEq α]

/-- The longest common beginning of two lists. -/
def commonStart : List α → List α → List α
  | a :: as, b :: bs => if a = b then a :: commonStart as bs else []
  | _, _ => []

def commonEnd (s t : List α) : List α := (commonStart s.reverse t.reverse).reverse

/-- The length of the longest end of one list that another list starts with. -/
def overlap (s t : List α) : Nat :=
  match s with
  | [] => 0
  | _ :: r => if s.isPrefixOf t then s.length else overlap r t

end SparqlConformance.Diff
