import Mathlib.Data.List.Basic
import SparqlConformance.Query.Outline
/-!
# Tokens in queries

How far the IRIs and strings of a query depend on what follows. A token that ends within a text is a token
whatever comes after the text, so two continuations that both leave the reader between two tokens leave the
same text behind.
-/
namespace SparqlConformance.Query

section lengths

theorem eq_of_bounded {a b : Option Nat} {k : Nat} (forth : ∀ {n}, a = some n → n ≤ k → b = some n)
    (back : ∀ {n}, b = some n → n ≤ k → a = some n) (bound : ∀ n, a = some n → n ≤ k)
    (bound' : ∀ n, b = some n → n ≤ k) : a = b :=
  Option.ext fun n => ⟨fun read => forth read (bound n read), fun read => back read (bound' n read)⟩

theorem le_of_map_succ {a : Option Nat} {k : Nat} (bound : ∀ n, a.map (· + 1) = some n → n ≤ k + 1)
    (n : Nat) (read : a = some n) : n ≤ k :=
  Nat.le_of_succ_le_succ (bound (n + 1) (by rw [read]; rfl))

variable {u v : List Char} {n : Nat} {quote : Char}

theorem iriLength?_pos (read : iriLength? v = some n) : 0 < n := by
  fun_induction iriLength? v generalizing n with
  | case1 | case4 => cases read
  | case2 =>
    obtain rfl := Option.some.inj read
    exact Nat.one_pos
  | case3 =>
    obtain ⟨m, -, rfl⟩ := Option.map_eq_some_iff.mp read
    exact Nat.succ_pos m

theorem shortLength?_pos (read : shortLength? quote v = some n) : 0 < n := by
  fun_induction shortLength? quote v generalizing n with
  | case1 | case3 | case4 => cases read
  | case2 =>
    obtain rfl := Option.some.inj read
    exact Nat.one_pos
  | case5 | case6 =>
    obtain ⟨m, -, rfl⟩ := Option.map_eq_some_iff.mp read
    exact Nat.succ_pos _

/-- A long string ends with three quotes. -/
theorem three_le_longLength? (read : longLength? quote v = some n) : 3 ≤ n := by
  fun_induction longLength? quote v generalizing n with
  | case1 | case3 | case4 | case6 => cases read
  | case2 =>
    obtain rfl := Option.some.inj read
    exact Nat.le_refl 3
  | case5 _ _ _ _ ih | case7 _ _ _ _ ih | case8 _ _ _ _ _ ih =>
    obtain ⟨m, read', rfl⟩ := Option.map_eq_some_iff.mp read
    exact Nat.le_add_right_of_le (ih read')

theorem iriLength?_append (v' : List Char) (read : iriLength? (u ++ v) = some n) (within : n ≤ u.length) :
    iriLength? (u ++ v') = some n := by
  induction u generalizing n with
  | nil =>
    have := iriLength?_pos read
    rw [List.length_nil] at within
    omega
  | cons c u ih =>
    rw [List.cons_append, iriLength?] at read ⊢
    split_ifs at read ⊢
    · exact read
    · obtain ⟨m, read', rfl⟩ := Option.map_eq_some_iff.mp read
      rw [ih read' (Nat.le_of_succ_le_succ within)]
      rfl

theorem shortLength?_append (v' : List Char) :
    ∀ {u : List Char} {n : Nat}, shortLength? quote (u ++ v) = some n → n ≤ u.length →
      shortLength? quote (u ++ v') = some n
  | [], n, read, within => by
    have := shortLength?_pos read
    rw [List.length_nil] at within
    omega
  | c :: u, n, read, within => by
    rw [List.cons_append, shortLength?.eq_def] at read ⊢
    dsimp only at read ⊢
    split_ifs at read ⊢
    · exact read
    · cases u with
      | nil =>
        cases v with
        | nil => cases read
        | cons d v =>
          obtain ⟨m, -, rfl⟩ := Option.map_eq_some_iff.mp read
          rw [List.length_singleton] at within
          omega
      | cons d u =>
        obtain ⟨m, read', rfl⟩ := Option.map_eq_some_iff.mp read
        rw [List.length_cons, List.length_cons] at within
        rw [List.cons_append]
        dsimp only
        rw [shortLength?_append v' read' (by omega)]
        rfl
    · obtain ⟨m, read', rfl⟩ := Option.map_eq_some_iff.mp read
      rw [shortLength?_append v' read' (Nat.le_of_succ_le_succ within)]
      rfl

theorem longLength?_append (v' : List Char) :
    ∀ {u : List Char} {n : Nat}, longLength? quote (u ++ v) = some n → n ≤ u.length →
      longLength? quote (u ++ v') = some n
  | [], n, read, within | [_], n, read, within => by
    have := three_le_longLength? read
    simp only [List.length_nil, List.length_singleton] at within
    omega
  | c :: d :: u, n, read, within => by
    rw [List.length_cons, List.length_cons] at within
    rw [List.cons_append, List.cons_append, longLength?.eq_def] at read ⊢
    dsimp only at read ⊢
    by_cases closed : c = quote ∧ (d :: (u ++ v)).take 2 = [quote, quote]
    · rw [if_pos closed] at read
      obtain rfl := Option.some.inj read
      cases u with
      | nil => simp at within
      | cons e u => exact if_pos closed
    · rw [if_neg closed] at read
      -- two quotes in a row are either closed by a third one or no part of a string at all
      have notClosed : ¬ (c = quote ∧ (d :: (u ++ v')).take 2 = [quote, quote]) := by
        rintro ⟨isQuote, pair⟩
        rw [if_pos isQuote, if_pos (List.cons.inj pair).1] at read
        cases read
      rw [if_neg notClosed]
      split_ifs at read ⊢
      · obtain ⟨m, read', rfl⟩ := Option.map_eq_some_iff.mp read
        rw [longLength?_append v' read' (by omega)]
        rfl
      · obtain ⟨m, read', rfl⟩ := Option.map_eq_some_iff.mp read
        rw [longLength?_append v' read' (by omega)]
        rfl
      · obtain ⟨m, read', rfl⟩ := Option.map_eq_some_iff.mp read
        rw [← List.cons_append] at read' ⊢
        rw [longLength?_append v' read' (by rw [List.length_cons]; omega)]
        rfl

/-- The length of a long string, after the first of its quotes. -/
def tripleLength? (quote : Char) (s : List Char) : Option Nat :=
  if s.take 2 = [quote, quote] then (longLength? quote (s.drop 2)).map (· + 3) else none

theorem stringLength?_eq (s : List Char) :
    stringLength? quote s = (tripleLength? quote s).or ((shortLength? quote s).map (· + 1)) := rfl

theorem tripleLength?_eq_some_iff {s : List Char} : tripleLength? quote s = some n ↔
    ∃ r m, s = quote :: quote :: r ∧ longLength? quote r = some m ∧ n = m + 3 := by
  unfold tripleLength?
  constructor
  · intro read
    split_ifs at read with pair
    obtain ⟨m, read', rfl⟩ := Option.map_eq_some_iff.mp read
    exact ⟨s.drop 2, m, by rw [← List.take_append_drop 2 s, pair]; rfl, read', rfl⟩
  · rintro ⟨r, m, rfl, read, rfl⟩
    have pair : (quote :: quote :: r).take 2 = [quote, quote] := rfl
    rw [if_pos pair, List.drop_succ_cons, List.drop_succ_cons, List.drop_zero, read]
    rfl

theorem tripleLength?_append (v' : List Char) (read : tripleLength? quote (u ++ v) = some n)
    (within : n ≤ u.length + 1) : tripleLength? quote (u ++ v') = some n := by
  obtain ⟨r, m, split, read', rfl⟩ := tripleLength?_eq_some_iff.mp read
  have least := three_le_longLength? read'
  obtain ⟨c, d, u, rfl⟩ : ∃ c d u', u = c :: d :: u' := by
    match u with
    | [] | [_] => simp at within
    | c :: d :: u => exact ⟨c, d, u, rfl⟩
  simp only [List.cons_append, List.cons.injEq] at split
  obtain ⟨rfl, rfl, rfl⟩ := split
  rw [List.length_cons, List.length_cons] at within
  exact tripleLength?_eq_some_iff.mpr
    ⟨u ++ v', m, rfl, longLength?_append v' read' (by omega), rfl⟩

theorem stringLength?_eq_of_within {v' : List Char}
    (within : ∀ n, stringLength? quote (u ++ v) = some n → n ≤ u.length + 1)
    (within' : ∀ n, stringLength? quote (u ++ v') = some n → n ≤ u.length + 1) :
    stringLength? quote (u ++ v) = stringLength? quote (u ++ v') := by
  have triple : tripleLength? quote (u ++ v) = tripleLength? quote (u ++ v') :=
    eq_of_bounded (tripleLength?_append v') (tripleLength?_append v)
      (fun n read => within n (by rw [stringLength?_eq, read]; rfl))
      (fun n read => within' n (by rw [stringLength?_eq, read]; rfl))
  rw [stringLength?_eq] at within within' ⊢
  rw [stringLength?_eq, triple]
  rw [triple] at within
  cases missing : tripleLength? quote (u ++ v') with
  | some n => rfl
  | none =>
    simp only [missing, Option.none_or] at within within' ⊢
    rw [eq_of_bounded (shortLength?_append v') (shortLength?_append v) (le_of_map_succ within)
      (le_of_map_succ within')]

end lengths

theorem tokenLength?_cons (c : Char) (r : List Char) :
    tokenLength? (c :: r) = if c = '<' then (iriLength? r).map (· + 1)
      else if c = '"' ∨ c = '\'' then stringLength? c r else none := by
  unfold tokenLength?
  split
  case h_1 h | h_2 h | h_3 h =>
    obtain ⟨rfl, rfl⟩ := List.cons.inj h
    rfl
  case h_4 noIri noDouble noSingle =>
    rw [if_neg, if_neg]
    · rintro (rfl | rfl)
      · exact noDouble _ rfl
      · exact noSingle _ rfl
    · rintro rfl
      exact noIri _ rfl

/-- A token at the start of a text ends within its first part. -/
def EndsWithin (u v : List Char) : Prop := ∀ n, tokenLength? (u ++ v) = some n → n ≤ u.length

theorem EndsWithin.tokenLength?_eq {c : Char} {u v v' : List Char} (within : EndsWithin (c :: u) v)
    (within' : EndsWithin (c :: u) v') :
    tokenLength? (c :: (u ++ v)) = tokenLength? (c :: (u ++ v')) := by
  unfold EndsWithin at within within'
  simp only [List.cons_append, List.length_cons] at within within'
  simp only [tokenLength?_cons] at within within' ⊢
  split_ifs at within within' ⊢
  · rw [eq_of_bounded (iriLength?_append v') (iriLength?_append v) (le_of_map_succ within)
      (le_of_map_succ within')]
  · exact stringLength?_eq_of_within within within'
  · rfl

/-- How many characters a reader has left of its last token after one more character, when it has `skip`
left before it and reads tokens in this way. -/
def skipNext (length? : List Char → Option Nat) (skip : Nat) (s : List Char) : Nat :=
  match skip with
  | k + 1 => k
  | 0 => (length? s).getD 1 - 1

/-- How many characters are left of the last token after a text. What comes after the text is told along,
as tokens depend on it. -/
def leftOver (skip : Nat) : List Char → List Char → Nat
  | [], _ => skip
  | c :: u, v => leftOver (skipNext tokenLength? skip (c :: (u ++ v))) u v

/-- What the first part of a text leaves behind when tokens are blanked. -/
def blankPart (skip : Nat) : List Char → List Char → List Char
  | [], _ => []
  | c :: u, v =>
    match skip with
    | k + 1 => blankPart k u v
    | 0 =>
      match tokenLength? (c :: (u ++ v)) with
      | some n => ' ' :: blankPart (n - 1) u v
      | none => c :: blankPart 0 u v

theorem blankTokens_append (k : Nat) (u v : List Char) :
    blankTokens k (u ++ v) = blankPart k u v ++ blankTokens (leftOver k u v) v := by
  induction u generalizing k with
  | nil => rfl
  | cons c u ih =>
    cases k with
    | succ k => exact ih k
    | zero =>
      rw [List.cons_append, blankTokens, blankPart, leftOver, skipNext]
      cases tokenLength? (c :: (u ++ v)) with
      | some n => exact congrArg (' ' :: ·) (ih (n - 1))
      | none => exact congrArg (c :: ·) (ih 0)

theorem le_length_of_leftOver {k : Nat} {u v : List Char} (done : leftOver k u v = 0) :
    k ≤ u.length := by
  induction u generalizing k with
  | nil => exact Nat.le_of_eq done
  | cons c u ih =>
    cases k with
    | zero => exact Nat.zero_le _
    | succ k => exact Nat.succ_le_succ (ih done)

theorem endsWithin_of_leftOver {c : Char} {u v : List Char} (done : leftOver 0 (c :: u) v = 0) :
    EndsWithin (c :: u) v := by
  intro n read
  rw [List.cons_append] at read
  rw [leftOver, skipNext, read] at done
  have := le_length_of_leftOver done
  rw [Option.getD_some] at this
  rw [List.length_cons]
  omega

/-- If the reader is between two tokens after a text whatever follows, what follows does not matter. -/
theorem blankPart_eq_of_leftOver {k : Nat} {u v v' : List Char} (done : leftOver k u v = 0)
    (done' : leftOver k u v' = 0) : blankPart k u v = blankPart k u v' := by
  induction u generalizing k with
  | nil => rfl
  | cons c u ih =>
    cases k with
    | succ k => exact ih done done'
    | zero =>
      have same := (endsWithin_of_leftOver done).tokenLength?_eq (endsWithin_of_leftOver done')
      rw [leftOver, skipNext] at done done'
      rw [← same] at done'
      rw [blankPart, blankPart, ← same]
      have rest := ih done done'
      cases token : tokenLength? (c :: (u ++ v)) with
      | some n =>
        rw [token] at rest
        exact congrArg (' ' :: ·) rest
      | none =>
        rw [token] at rest
        exact congrArg (c :: ·) rest

/-- Blanking brings in spaces only. -/
theorem mem_of_mem_blankPart {d : Char} {k : Nat} {u v : List Char} (notSpace : d ≠ ' ')
    (kept : d ∈ blankPart k u v) : d ∈ u := by
  induction u generalizing k with
  | nil => exact kept
  | cons c u ih =>
    cases k with
    | succ k => exact List.mem_cons_of_mem c (ih kept)
    | zero =>
      rw [blankPart] at kept
      cases token : tokenLength? (c :: (u ++ v)) with
      | some n =>
        rw [token] at kept
        rcases List.mem_cons.mp kept with rfl | kept
        · exact absurd rfl notSpace
        · exact List.mem_cons_of_mem c (ih kept)
      | none =>
        rw [token] at kept
        rcases List.mem_cons.mp kept with rfl | kept
        · exact List.mem_cons_self
        · exact List.mem_cons_of_mem c (ih kept)

theorem mem_of_mem_blankTokens {d : Char} {k : Nat} {u : List Char} (notSpace : d ≠ ' ')
    (kept : d ∈ blankTokens k u) : d ∈ u := by
  have whole := blankTokens_append k u []
  rw [List.append_nil, blankTokens, List.append_nil] at whole
  rw [whole] at kept
  exact mem_of_mem_blankPart notSpace kept

end SparqlConformance.Query
