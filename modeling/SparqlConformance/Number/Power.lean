/-!
# Powers

Powers of the bases in which numbers are kept and written.
-/
namespace SparqlConformance

def twoTo (n : Nat) : Nat := Nat.pow 2 n

def tenTo (n : Nat) : Nat := Nat.pow 10 n

@[simp] theorem twoTo_zero : twoTo 0 = 1 := rfl

theorem twoTo_succ (n : Nat) : twoTo (n + 1) = 2 * twoTo n := Nat.mul_comm (twoTo n) 2

@[simp] theorem tenTo_zero : tenTo 0 = 1 := rfl

theorem tenTo_succ (n : Nat) : tenTo (n + 1) = 10 * tenTo n := Nat.mul_comm (tenTo n) 10

theorem twoTo_pos (n : Nat) : 0 < twoTo n := by
  induction n with
  | zero => exact Nat.one_pos
  | succ n ih => rw [twoTo_succ]; omega

theorem tenTo_pos (n : Nat) : 0 < tenTo n := by
  induction n with
  | zero => exact Nat.one_pos
  | succ n ih => rw [tenTo_succ]; omega

end SparqlConformance
