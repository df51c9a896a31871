import Mathlib.Data.List.Infix
import SparqlConformance.Proofs.QueryTokens
/-!
# Lines that close their tokens

When the tokens that start on a line can go beyond its end. IRIs never do; a short string does if the line
ends with a backslash in it, and a long string if something closes it later. Whether any token of a line
does can be seen with one following text, which closes every string that is still open.
-/
namespace SparqlConformance.Query

/-- Closes every string that is open after a line. -/
def closing : List Char := ['A', 'S', 'K', '"', '"', '"', '\'', '\'', '\'']

/-- Whatever follows, no token of a line goes beyond its end. -/
def ClosedOnLine (u : List Char) : Prop := ∀ v, leftOver 0 u ('\n' :: v) = 0

section crossing

variable {quote : Char} {v : List Char}

theorem iriLength?_le_of_line {u : List Char} {n : Nat} (read : iriLength? (u ++ '\n' :: v) = some n) :
    n ≤ u.length := by
  induction u generalizing n with
  | nil =>
    rw [List.nil_append, iriLength?, if_neg (by decide), if_neg (by decide)] at read
    cases read
  | cons c u ih =>
    rw [List.cons_append, iriLength?] at read
    split_ifs at read
    · obtain rfl := Option.some.inj read
      exact Nat.succ_le_succ (Nat.zero_le _)
    · obtain ⟨m, read', rfl⟩ := Option.map_eq_some_iff.mp read
      exact Nat.succ_le_succ (ih read')

theorem getLast?_cons_of_some {α : Type} {a : α} (b : α) {u : List α} (last : u.getLast? = some a) :
    (b :: u).getLast? = some a := by
  rw [List.getLast?_cons, last]
  rfl

/-- A short string that goes beyond its line has escaped the end of it, and ends with what closes all. -/
theorem shortLength?_crosses (isQuote : quote = '"' ∨ quote = '\'') {u : List Char} {n : Nat}
    (read : shortLength? quote (u ++ '\n' :: v) = some n) (beyond : u.length < n) :
    u.getLast? = some '\\' ∧
      ∃ m, shortLength? quote (u ++ '\n' :: closing) = some m ∧ u.length < m := by
  have notEnd : '\n' ≠ quote := by rcases isQuote with rfl | rfl <;> decide
  have lineEnd : ∀ w, shortLength? quote ('\n' :: w) = none := by
    intro w
    rw [shortLength?.eq_def]
    dsimp only
    rw [if_neg notEnd, if_pos rfl]
  induction u using List.twoStepInduction generalizing n with
  | nil =>
    rw [List.nil_append, lineEnd] at read
    cases read
  | singleton c =>
    rw [List.singleton_append, shortLength?.eq_def] at read ⊢
    dsimp only at read ⊢
    split_ifs at read ⊢ with closed broken escape
    · obtain rfl := Option.some.inj read
      exact absurd beyond (Nat.lt_irrefl 1)
    · refine ⟨congrArg some escape, ?_⟩
      rcases isQuote with rfl | rfl
      · exact ⟨6, rfl, by simp⟩
      · exact ⟨9, rfl, by simp⟩
    · rw [lineEnd] at read
      cases read
  | cons_cons c d u ih₁ ih₂ =>
    rw [List.cons_append, List.cons_append, shortLength?.eq_def] at read ⊢
    dsimp only at read ⊢
    simp only [List.length_cons] at beyond ih₂ ⊢
    split_ifs at read ⊢ with closed broken escape
    · obtain rfl := Option.some.inj read
      omega
    · obtain ⟨m, read', rfl⟩ := Option.map_eq_some_iff.mp read
      obtain ⟨last, m', read'', longer⟩ := ih₁ read' (by omega)
      refine ⟨getLast?_cons_of_some c (getLast?_cons_of_some d last), m' + 2, ?_, by omega⟩
      rw [read'']
      rfl
    · obtain ⟨m, read', rfl⟩ := Option.map_eq_some_iff.mp read
      obtain ⟨last, m', read'', longer⟩ := ih₂ d read' (by omega)
      refine ⟨getLast?_cons_of_some c last, m' + 1, ?_, by omega⟩
      rw [← List.cons_append, read'']
      rfl

/-- Two quotes at the start of a text that has a line end do not depend on what follows the line. -/
theorem take_two_iff {w : List Char} (notEnd : '\n' ≠ quote) (u : List Char) :
    (u ++ '\n' :: w).take 2 = [quote, quote] ↔ ∃ u', u = quote :: quote :: u' := by
  match u with
  | [] => simp [notEnd]
  | [c] => simp [notEnd]
  | c :: d :: u => simp

theorem longLength?_crosses (isQuote : quote = '"' ∨ quote = '\'') {u : List Char} {n : Nat}
    (read : longLength? quote (u ++ '\n' :: v) = some n) (beyond : u.length < n) :
    ∃ m, longLength? quote (u ++ '\n' :: closing) = some m ∧ u.length < m := by
  have notEnd : '\n' ≠ quote := by rcases isQuote with rfl | rfl <;> decide
  have closes : ∃ m, longLength? quote closing = some m := by
    rcases isQuote with rfl | rfl
    · exact ⟨6, rfl⟩
    · exact ⟨9, rfl⟩
  have closesNext : ∃ m, longLength? quote ('\n' :: closing) = some m := by
    rcases isQuote with rfl | rfl
    · exact ⟨7, rfl⟩
    · exact ⟨10, rfl⟩
  induction u using List.twoStepInduction generalizing n with
  | nil =>
    obtain ⟨m, read'⟩ := closesNext
    have := three_le_longLength? read'
    exact ⟨m, read', by rw [List.length_nil]; omega⟩
  | singleton c =>
    rw [List.singleton_append, longLength?.eq_def]
    dsimp only
    rw [if_neg (fun closed => notEnd (List.cons.inj closed.2).1), if_neg notEnd]
    obtain ⟨m, read'⟩ := closes
    obtain ⟨m', read''⟩ := closesNext
    have := three_le_longLength? read''
    split_ifs
    · exact ⟨m + 2, by rw [read']; rfl, by rw [List.length_singleton]; omega⟩
    · exact ⟨m + 2, by rw [read']; rfl, by rw [List.length_singleton]; omega⟩
    · exact ⟨m' + 1, by rw [read'']; rfl, by rw [List.length_singleton]; omega⟩
  | cons_cons c d u ih₁ ih₂ =>
    rw [List.cons_append, List.cons_append, longLength?.eq_def] at read ⊢
    dsimp only at read ⊢
    simp only [List.length_cons] at beyond ih₂ ⊢
    by_cases closed : c = quote ∧ (d :: (u ++ '\n' :: v)).take 2 = [quote, quote]
    · rw [if_pos closed] at read
      obtain rfl := Option.some.inj read
      obtain ⟨u', pair⟩ := (take_two_iff notEnd (d :: u)).mp closed.2
      obtain ⟨-, rfl⟩ := List.cons.inj pair
      rw [List.length_cons] at beyond
      omega
    have notClosed : ¬ (c = quote ∧ (d :: (u ++ '\n' :: closing)).take 2 = [quote, quote]) :=
      fun h => closed
        ⟨h.1, (take_two_iff notEnd (d :: u)).mpr ((take_two_iff notEnd (d :: u)).mp h.2)⟩
    rw [if_neg closed] at read
    rw [if_neg notClosed]
    split_ifs at read ⊢
    · obtain ⟨m, read', rfl⟩ := Option.map_eq_some_iff.mp read
      obtain ⟨m', read'', longer⟩ := ih₁ read' (by omega)
      exact ⟨m' + 2, by rw [read'']; rfl, by omega⟩
    · obtain ⟨m, read', rfl⟩ := Option.map_eq_some_iff.mp read
      obtain ⟨m', read'', longer⟩ := ih₁ read' (by omega)
      exact ⟨m' + 2, by rw [read'']; rfl, by omega⟩
    · obtain ⟨m, read', rfl⟩ := Option.map_eq_some_iff.mp read
      obtain ⟨m', read'', longer⟩ := ih₂ d read' (by omega)
      exact ⟨m' + 1, by rw [← List.cons_append, read'']; rfl, by omega⟩

theorem tripleLength?_crosses (isQuote : quote = '"' ∨ quote = '\'') {u : List Char} {n : Nat}
    (read : tripleLength? quote (u ++ '\n' :: v) = some n) (beyond : u.length + 1 < n) :
    (∃ u', u = quote :: quote :: u') ∧
      ∃ m, tripleLength? quote (u ++ '\n' :: closing) = some m ∧ u.length + 1 < m := by
  have notEnd : '\n' ≠ quote := by rcases isQuote with rfl | rfl <;> decide
  obtain ⟨r, m, split, read', rfl⟩ := tripleLength?_eq_some_iff.mp read
  obtain ⟨u, rfl⟩ := (take_two_iff notEnd u).mp (by rw [split]; rfl)
  obtain rfl : u ++ '\n' :: v = r := by simpa using split
  rw [List.length_cons, List.length_cons] at beyond ⊢
  obtain ⟨m', read'', longer⟩ := longLength?_crosses isQuote read' (by omega)
  exact ⟨⟨u, rfl⟩, m' + 3, tripleLength?_eq_some_iff.mpr ⟨_, m', rfl, read'', rfl⟩, by omega⟩

/-- A token that goes beyond its line is a long string or has escaped the end of the line, and ends with
what closes all. -/
theorem tokenLength?_crosses {c : Char} {u : List Char} {n : Nat}
    (read : tokenLength? (c :: (u ++ '\n' :: v)) = some n) (beyond : u.length + 1 < n) :
    (u.getLast? = some '\\' ∨ (c = '"' ∨ c = '\'') ∧ ∃ u', u = c :: c :: u') ∧
      ∃ m, tokenLength? (c :: (u ++ '\n' :: closing)) = some m ∧ u.length + 1 < m := by
  rw [tokenLength?_cons] at read ⊢
  split_ifs at read ⊢ with iri isQuote
  · obtain ⟨m, read', rfl⟩ := Option.map_eq_some_iff.mp read
    have := iriLength?_le_of_line read'
    omega
  rw [stringLength?_eq] at read ⊢
  cases long : tripleLength? c (u ++ '\n' :: v) with
  | some k =>
    rw [long] at read
    obtain rfl := Option.some.inj read
    obtain ⟨pair, m, triple, longer⟩ := tripleLength?_crosses isQuote long beyond
    exact ⟨.inr ⟨isQuote, pair⟩, m, by rw [triple]; rfl, longer⟩
  | none =>
    rw [long, Option.none_or] at read
    obtain ⟨m, read', rfl⟩ := Option.map_eq_some_iff.mp read
    obtain ⟨last, m', read'', longer⟩ := shortLength?_crosses isQuote read' (by omega)
    refine ⟨.inl last, ?_⟩
    -- with the closing text there may be a long string after all, but only one that goes further
    cases long' : tripleLength? c (u ++ '\n' :: closing) with
    | none => exact ⟨m' + 1, by rw [read'']; rfl, by omega⟩
    | some k =>
      refine ⟨k, rfl, ?_⟩
      by_contra within
      have back := tripleLength?_append ('\n' :: v) long' (by omega)
      rw [long] at back
      cases back

end crossing

theorem leftOver_eq_zero_of_closing {k : Nat} {u : List Char} (v : List Char)
    (closed : leftOver k u ('\n' :: closing) = 0) : leftOver k u ('\n' :: v) = 0 := by
  induction u generalizing k with
  | nil => exact closed
  | cons c u ih =>
    cases k with
    | succ k => exact ih closed
    | zero =>
      have within := endsWithin_of_leftOver closed
      have within' : EndsWithin (c :: u) ('\n' :: v) := by
        intro n read
        by_contra beyond
        obtain ⟨-, m, read', longer⟩ := tokenLength?_crosses read (Nat.lt_of_not_le beyond)
        exact Nat.not_le_of_lt longer (within m read')
      rw [leftOver, skipNext, within.tokenLength?_eq within'] at closed
      exact ih closed

/-- One text decides whether tokens go beyond the end of a line. -/
theorem closedOnLine_iff {u : List Char} :
    ClosedOnLine u ↔ leftOver 0 u ('\n' :: closing) = 0 :=
  ⟨fun closed => closed closing, fun closed v => leftOver_eq_zero_of_closing v closed⟩

/-- A line without three quotes in a row, and without a backslash at its end. -/
structure IsCalm (u : List Char) : Prop where
  noTriple : ∀ q, q = '"' ∨ q = '\'' → ¬ [q, q, q] <:+: u
  noEscape : u.getLast? ≠ some '\\'

theorem IsCalm.tail {c : Char} {u : List Char} (calm : IsCalm (c :: u)) : IsCalm u :=
  ⟨fun q isQuote triple => calm.noTriple q isQuote (triple.trans (List.infix_cons (List.infix_refl u))),
    fun last => calm.noEscape (getLast?_cons_of_some c last)⟩

theorem IsCalm.leftOver_eq_zero {k : Nat} {u : List Char} (calm : IsCalm u) (short : k ≤ u.length)
    (v : List Char) : leftOver k u ('\n' :: v) = 0 := by
  induction u generalizing k with
  | nil => exact Nat.eq_zero_of_le_zero short
  | cons c u ih =>
    cases k with
    | succ k => exact ih calm.tail (Nat.le_of_succ_le_succ short)
    | zero =>
      rw [leftOver, skipNext]
      cases token : tokenLength? (c :: (u ++ '\n' :: v)) with
      | none => exact ih calm.tail (Nat.zero_le _)
      | some n =>
        refine ih calm.tail ?_
        rw [Option.getD_some]
        by_contra beyond
        obtain ⟨last | ⟨isQuote, u', rfl⟩, -⟩ := tokenLength?_crosses token (by omega)
        · exact calm.tail.noEscape last
        · exact calm.noTriple c isQuote ⟨[], u', rfl⟩

theorem IsCalm.closedOnLine {u : List Char} (calm : IsCalm u) : ClosedOnLine u :=
  fun v => calm.leftOver_eq_zero (Nat.zero_le _) v

end SparqlConformance.Query
