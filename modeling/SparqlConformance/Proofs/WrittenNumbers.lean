import Mathlib.Data.Nat.Digits.Defs
import SparqlConformance.Proofs.WrittenTerms
/-!
# Written numbers

Numbers are written in decimal. What reads them may allow a plus sign and zeros in front, and finds the number that was
written in any case. A sequence is read when each of its parts is.
-/
namespace SparqlConformance

/-- Parts that are all read are read in their order. -/
theorem mapM_eq_pure {m : Type → Type} [Monad m] [LawfulMonad m] {α β : Type} {f : α → m β} {g : α → β} {as : List α}
    (read : ∀ a ∈ as, f a = pure (g a)) : as.mapM f = pure (as.map g) := by
  induction as with
  | nil => rfl
  | cons a as ih =>
    rw [List.mapM_cons, read a (List.mem_cons_self ..), ih fun b hb => read b (List.mem_cons_of_mem _ hb),
      pure_bind, pure_bind]
    rfl

/-- A number is written in decimal, perhaps with a plus sign and zeros in front. -/
def SpellsNumber (value : String) (n : Nat) : Prop :=
  ∃ sign ∈ [[], ['+']], ∃ zeros,
    value.toList = sign ++ (List.replicate zeros '0' ++ (toString n).toList)

namespace Text

theorem foldDigits_of_digits {s : List Char} (digits : ∀ c ∈ s, c.isDigit = true) (acc : Nat) :
    foldDigits 10 decimalDigit? acc s = some (Nat.ofDigitChars 10 s acc) := by
  induction s generalizing acc with
  | nil => rfl
  | cons c s ih =>
    have digit : decimalDigit? c = some (c.toNat - '0'.toNat) := if_pos (digits c (List.mem_cons_self ..))
    rw [foldDigits, digit, Option.bind_some, ih fun d hd => digits d (List.mem_cons_of_mem _ hd),
      Nat.ofDigitChars_cons, Nat.mul_comm]

theorem ofDigitChars_zeros (zeros : Nat) (s : List Char) :
    Nat.ofDigitChars 10 (List.replicate zeros '0' ++ s) 0 = Nat.ofDigitChars 10 s 0 := by
  induction zeros with
  | zero => rfl
  | succ zeros ih => exact (Nat.ofDigitChars_cons).trans ih

/-- A number is found behind a sign and behind zeros. -/
theorem unsigned?_spelled {sign : List Char} (allowed : sign ∈ [[], ['+']]) (zeros n : Nat) :
    unsigned? 10 decimalDigit? (sign ++ (List.replicate zeros '0' ++ Nat.toDigits 10 n)) = some n := by
  have digits : ∀ c ∈ List.replicate zeros '0' ++ Nat.toDigits 10 n, c.isDigit = true := by
    intro c hc
    rcases List.mem_append.mp hc with zero | digit
    · rw [(List.mem_replicate.mp zero).2]
      rfl
    · exact Nat.isDigit_of_mem_toDigits (by omega) (by omega) digit
  have read : foldDigits 10 decimalDigit? 0 (List.replicate zeros '0' ++ Nat.toDigits 10 n) = some n := by
    rw [foldDigits_of_digits digits, ofDigitChars_zeros, Nat.ofDigitChars_ten_toDigits]
  have some_digit : List.replicate zeros '0' ++ Nat.toDigits 10 n ≠ [] :=
    List.append_ne_nil_of_right_ne_nil _ Nat.toDigits_ne_nil
  generalize List.replicate zeros '0' ++ Nat.toDigits 10 n = s at digits read some_digit
  cases s with
  | nil => exact absurd rfl some_digit
  | cons c s =>
    rcases List.mem_pair.mp allowed with rfl | rfl
    · have no_sign : c ≠ '+' := by
        rintro rfl
        exact absurd (digits '+' (List.mem_cons_self ..)) (by decide)
      exact (unsigned?_cons no_sign s).trans read
    · exact read

theorem decimalBelow?_of_spellsNumber {value : String} {n bound : Nat} (spelled : SpellsNumber value n)
    (below : n < bound) : decimalBelow? bound value.toList = some n := by
  obtain ⟨sign, allowed, zeros, text⟩ := spelled
  have shown : (toString n).toList = Nat.toDigits 10 n := Nat.toList_repr
  rw [decimalBelow?, text, shown, unsigned?_spelled allowed, Option.bind_some, if_pos below]

end Text

end SparqlConformance
