import SparqlConformance.Format.Json.Value
import SparqlConformance.Proofs.AsciiCharacters
import SparqlConformance.Proofs.EncodedText
/-!
# JSON strings and numbers are read back

A quoted string is read back in front of anything, and an integer of 64 bits in front of anything that
ends numbers. Texts are not decoded here, so a character may stand as several.
-/
namespace SparqlConformance.Json

open Text Utf8

section Strings

theorem readString_cons {c : Char} (quote : c ≠ '"') (backslash : c ≠ '\\') (control : 0x20 ≤ c.toNat)
    (rest : List Char) :
    readString (c :: rest) = (readString rest).map fun (s, back) => (c :: s, back) := by
  have plain : ¬ (c = '\\' ∨ c.toNat < 0x20) := by
    rintro (h | h)
    · exact backslash h
    · omega
  rw [readString.eq_def]
  split
  · rename_i nothing
    cases nothing
  · rename_i closes
    exact absurd (List.cons.inj closes).1 quote
  · rename_i escape
    exact absurd (List.cons.inj escape).1 backslash
  · rename_i escape
    exact absurd (List.cons.inj escape).1 backslash
  · rename_i other
    obtain ⟨rfl, rfl⟩ := List.cons.inj other
    rw [if_neg plain]

theorem readString_plain {s : List Char}
    (plain : ∀ c ∈ s, c ≠ '"' ∧ c ≠ '\\' ∧ 0x20 ≤ c.toNat) (rest : List Char) :
    readString (s ++ rest) = (readString rest).map fun (t, back) => (s ++ t, back) := by
  induction s with
  | nil => exact Option.map_id'.symm
  | cons c s ih =>
    obtain ⟨quote, backslash, control⟩ := plain c (List.mem_cons_self ..)
    rw [List.cons_append, readString_cons quote backslash control,
      ih fun d hd => plain d (List.mem_cons_of_mem _ hd), Option.map_map]
    rfl

theorem hexDigit?_lowerHexDigit : ∀ n < 16, hexDigit? (lowerHexDigit n) = some n := by
  decide

theorem lowerHexDigit_ascii : ∀ n < 16, (lowerHexDigit n).toNat < 128 := by
  decide

/-- What is written for a control character is read as that character. -/
theorem readString_unit {c : Char} (control : c.toNat < 0x20) (rest : List Char) :
    readString ('\\' :: 'u' :: '0' :: '0' :: lowerHexDigit (c.toNat / 16) ::
      lowerHexDigit (c.toNat % 16) :: rest) =
        (readString rest).map fun (s, back) => (raw [c] ++ s, back) := by
  have high := hexDigit?_lowerHexDigit (c.toNat / 16) (by omega)
  have low := hexDigit?_lowerHexDigit (c.toNat % 16) (by omega)
  have value : (0 * 16 + c.toNat / 16) * 16 + c.toNat % 16 = c.toNat := by omega
  have zero : hexDigit? '0' = some 0 := rfl
  have unit : unit? ['0', '0', lowerHexDigit (c.toNat / 16), lowerHexDigit (c.toNat % 16)] =
      some c.toNat := by
    simp only [unit?, foldDigits, zero, high, low, Option.bind_some, Nat.zero_mul, Nat.add_zero, value]
  have alone : isHigh c.toNat = false := by
    simp only [isHigh, Bool.and_eq_false_iff, decide_eq_false_iff_not]
    omega
  have scalar : scalar? c.toNat = some c := by
    rw [scalar?, if_pos (by omega), Char.ofNat_toNat]
  rw [readString, unit]
  simp only [alone, scalar]
  rfl

/-- What is written for a character is read as that character. -/
theorem readString_escapeChar (c : Char) (rest : List Char) :
    readString (raw (escapeChar c) ++ rest) =
      (readString rest).map fun (s, back) => (raw [c] ++ s, back) := by
  by_cases short : c ∈ ['"', '\\', '\x08', '\t', '\n', '\x0c', '\r']
  · simp only [List.mem_cons, List.not_mem_nil, or_false] at short
    rcases short with rfl | rfl | rfl | rfl | rfl | rfl | rfl <;> rfl
  simp only [List.mem_cons, List.not_mem_nil, or_false, not_or] at short
  obtain ⟨hquote, hbackslash, hbackspace, htab, hfeed, hform, hreturn⟩ := short
  simp only [escapeChar, hquote, hbackslash, hbackspace, htab, hfeed, hform, hreturn, if_false]
  by_cases control : c.toNat < 0x20
  · have digits : ∀ d ∈ ['\\', 'u', '0', '0', lowerHexDigit (c.toNat / 16),
        lowerHexDigit (c.toNat % 16)], d.toNat < 128 := by
      simp only [List.forall_mem_cons, List.not_mem_nil, false_implies, implies_true, and_true]
      exact ⟨by decide, by decide, by decide, by decide, lowerHexDigit_ascii _ (by omega),
        lowerHexDigit_ascii _ (by omega)⟩
    rw [if_pos control, raw_of_ascii digits]
    exact readString_unit control rest
  · rw [if_neg control]
    refine readString_plain (fun d hd => ?_) rest
    by_cases ascii : c.toNat < 128
    · rw [raw_ascii ascii] at hd
      obtain rfl := List.mem_singleton.mp hd
      exact ⟨hquote, hbackslash, by omega⟩
    · have outside := not_ascii_of_mem_raw (by omega) d hd
      refine ⟨?_, ?_, by omega⟩ <;> (rintro rfl; exact absurd outside (by decide))

theorem readString_quoted (s rest : List Char) :
    readString (raw (s.flatMap escapeChar) ++ '"' :: rest) = some (raw s, rest) := by
  induction s with
  | nil => rfl
  | cons c s ih =>
    rw [List.flatMap_cons, raw_append, List.append_assoc, readString_escapeChar, ih, raw_cons c s]
    rfl

theorem raw_quoted (s : String) :
    raw (quoted s) = '"' :: (raw (s.toList.flatMap escapeChar) ++ ['"']) := by
  rw [quoted, raw_cons_ascii (by decide), raw_append, raw_ascii (by decide)]

theorem string?_quoted (s : String) (rest : List Char) :
    string? (raw (s.toList.flatMap escapeChar) ++ '"' :: rest) = some (s, rest) := by
  rw [string?, readString_quoted, Option.bind_some]
  dsimp only
  rw [decodePiece?_raw, Option.map_some, String.ofList_toList]

end Strings

section Numbers

/-- What may stand behind a number. -/
def EndsNumber (rest : List Char) : Prop := ∀ c, rest.head? = some c → c = ',' ∨ isBlank c = true

variable {rest : List Char}

theorem EndsNumber.not_mem (ends : EndsNumber rest) {c : Char} (hc : rest.head? = some c) :
    c.isDigit = false ∧ c ≠ '.' ∧ c ≠ 'e' ∧ c ≠ 'E' := by
  have cases := ends c hc
  simp only [isBlank, Bool.or_eq_true, beq_iff_eq] at cases
  rcases cases with rfl | ((rfl | rfl) | rfl) | rfl <;> decide

theorem isDigit_of_mem_toDigits {n : Nat} : ∀ c ∈ Nat.toDigits 10 n, c.isDigit = true := fun _ hc =>
  Nat.isDigit_of_mem_toDigits (by omega) (by omega) hc

theorem toDigits_ne_nil (n : Nat) : Nat.toDigits 10 n ≠ [] :=
  List.ne_nil_of_length_pos Nat.length_toDigits_pos

/-- The digits of a number do not start with a zero, unless it is zero. -/
theorem head?_toDigits {n : Nat} (positive : 0 < n) : (Nat.toDigits 10 n).head? ≠ some '0' := by
  induction n using Nat.strongRecOn with
  | ind n ih =>
    by_cases small : n < 10
    · rw [Nat.toDigits_of_lt_base small]
      interval_cases n <;> decide
    · rw [Nat.toDigits_of_base_le (by omega) (by omega), List.head?_append_of_ne_nil _ (toDigits_ne_nil _)]
      exact ih (n / 10) (by omega) (by omega)

theorem whole?_toDigits (n : Nat) (ends : EndsNumber rest) :
    whole? (Nat.toDigits 10 n ++ rest) = some (Nat.toDigits 10 n, rest) := by
  by_cases positive : 0 < n
  · have hspan := span_append (isDigit_of_mem_toDigits (n := n)) fun c hc => (ends.not_mem hc).1
    have hhead := head?_toDigits positive
    cases hdigits : Nat.toDigits 10 n with
    | nil => exact absurd hdigits (toDigits_ne_nil n)
    | cons c digits =>
      rw [hdigits] at hspan hhead
      have hzero : c ≠ '0' := fun h => hhead (congrArg some h)
      rw [whole?.eq_2 _ (by simpa using hzero), digits?, hspan]
      rfl
  · obtain rfl := Nat.eq_zero_of_not_pos positive
    rfl

theorem fraction?_ends (ends : EndsNumber rest) : fraction? rest = some ([], rest) := by
  cases rest with
  | nil => rfl
  | cons c rest =>
    have hdot := (ends.not_mem rfl).2.1
    rw [fraction?.eq_2 _ (by simpa using hdot)]

theorem exponent?_ends (ends : EndsNumber rest) : exponent? rest = some ([], rest) := by
  cases rest with
  | nil => rfl
  | cons c rest =>
    have hletter := (ends.not_mem rfl).2.2
    unfold exponent?
    exact if_neg (not_or.mpr hletter)

/-- The integers of 64 bits, and zero with a minus sign. -/
inductive IsInteger : JsonNumber → Prop
  | whole {n : Int} (low : -2 ^ 63 ≤ n) (high : n < 2 ^ 64) : IsInteger (.whole n)
  | minusZero : IsInteger (.real true .zero)

theorem text_whole (n : Int) :
    (JsonNumber.whole n).text =
      if 0 ≤ n then Nat.toDigits 10 n.toNat else '-' :: Nat.toDigits 10 (-n).toNat := by
  rw [JsonNumber.text, Int.toString_eq_repr, Int.repr_eq_if]
  split
  · rw [Nat.repr_eq_ofList_toDigits, String.toList_ofList]
  · rw [Nat.repr_eq_ofList_toDigits, String.toList_append]
    exact congrArg ('-' :: ·) String.toList_ofList

theorem exists_toDigits (n : Nat) : ∃ c digits, Nat.toDigits 10 n = c :: digits ∧ c ≠ '-' := by
  cases hdigits : Nat.toDigits 10 n with
  | nil => exact absurd hdigits (toDigits_ne_nil n)
  | cons c digits =>
    have hc : c.isDigit = true := isDigit_of_mem_toDigits (n := n) c (hdigits ▸ List.mem_cons_self ..)
    refine ⟨c, digits, rfl, ?_⟩
    rintro rfl
    cases hc

theorem number?_digits (n : Nat) (ends : EndsNumber rest) :
    number? (Nat.toDigits 10 n ++ rest) = some (Nat.toDigits 10 n, rest) := by
  have hwhole := whole?_toDigits n ends
  obtain ⟨c, digits, hdigits, hminus⟩ := exists_toDigits n
  rw [hdigits, List.cons_append] at hwhole ⊢
  unfold number?
  split
  rename_i sign s hmatch
  split at hmatch
  · rename_i heq
    exact absurd (List.cons.inj heq).1 hminus
  · obtain ⟨rfl, rfl⟩ := Prod.mk.inj hmatch
    simp [hwhole, fraction?_ends ends, exponent?_ends ends]

theorem number?_minus_digits (n : Nat) (ends : EndsNumber rest) :
    number? ('-' :: (Nat.toDigits 10 n ++ rest)) = some ('-' :: Nat.toDigits 10 n, rest) := by
  simp [number?, whole?_toDigits n ends, fraction?_ends ends, exponent?_ends ends]

theorem number?_text {n : JsonNumber} (integer : IsInteger n) (ends : EndsNumber rest) :
    number? (n.text ++ rest) = some (n.text, rest) := by
  cases integer with
  | @whole n low high =>
    rw [text_whole]
    split
    · exact number?_digits _ ends
    · exact number?_minus_digits _ ends
  | minusZero =>
    have hspan := span_append (a := ['0']) (p := Char.isDigit) (List.forall_mem_singleton.mpr rfl) fun c hc => (ends.not_mem hc).1
    have hfraction : fraction? ('.' :: '0' :: rest) = some (['.', '0'], rest) := by
      rw [fraction?, digits?, ← List.singleton_append, hspan]
      rfl
    have htext : (JsonNumber.real true .zero).text ++ rest = '-' :: '0' :: '.' :: '0' :: rest := rfl
    rw [htext]
    simp [number?, whole?, hfraction, exponent?_ends ends]
    rfl

theorem le_ofDigitChars (s : List Char) (n : Nat) : n ≤ Nat.ofDigitChars 10 s n := by
  induction s generalizing n with
  | nil => exact Nat.le_refl n
  | cons c s ih =>
    have := ih (10 * n + (c.toNat - '0'.toNat))
    rw [Nat.ofDigitChars, List.foldl_cons]
    rw [Nat.ofDigitChars] at this
    omega

theorem leading_of_lt {s : List Char} {n : Nat} (fits : Nat.ofDigitChars 10 s n < twoTo 64) :
    JsonNumber.leading n s = (Nat.ofDigitChars 10 s n, []) := by
  induction s generalizing n with
  | nil => rfl
  | cons c s ih =>
    have hstep : Nat.ofDigitChars 10 (c :: s) n = Nat.ofDigitChars 10 s (n * 10 + (c.toNat - 48)) := by
      rw [Nat.mul_comm]
      rfl
    rw [hstep] at fits ⊢
    rw [JsonNumber.leading]
    exact (if_pos ((le_ofDigitChars s _).trans_lt fits)).trans (ih fits)

theorem leading_toDigits {n : Nat} (fits : n < twoTo 64) :
    JsonNumber.leading 0 (Nat.toDigits 10 n) = (n, []) := by
  have value := Nat.ofDigitChars_ten_toDigits (n := n)
  have hleading := leading_of_lt (s := Nat.toDigits 10 n) (n := 0) (by rwa [value])
  rwa [value] at hleading

theorem span_toDigits (n : Nat) :
    (Nat.toDigits 10 n).span Char.isDigit = (Nat.toDigits 10 n, []) := by
  have hspan := span_append (b := []) (isDigit_of_mem_toDigits (n := n)) fun c hc => by cases hc
  rwa [List.append_nil] at hspan

theorem ofText?_digits (n : Nat) :
    JsonNumber.ofText? (Nat.toDigits 10 n) = JsonNumber.ofParts? false (Nat.toDigits 10 n) [] [] := by
  have hspan := span_toDigits n
  obtain ⟨c, digits, hdigits, hminus⟩ := exists_toDigits n
  rw [hdigits] at hspan ⊢
  unfold JsonNumber.ofText?
  split
  rename_i negative s hmatch
  split at hmatch
  · rename_i heq
    exact absurd (List.cons.inj heq).1 hminus
  · obtain ⟨rfl, rfl⟩ := Prod.mk.inj hmatch
    rw [hspan]

theorem ofText?_minus_digits (n : Nat) :
    JsonNumber.ofText? ('-' :: Nat.toDigits 10 n) =
      JsonNumber.ofParts? true (Nat.toDigits 10 n) [] [] := by
  simp only [JsonNumber.ofText?]
  rw [span_toDigits]

/-- An integer is read back from its text. -/
theorem ofText?_text {n : JsonNumber} (integer : IsInteger n) : JsonNumber.ofText? n.text = some n := by
  cases integer with
  | @whole n low high =>
    have bound : twoTo 63 = 2 ^ 63 ∧ twoTo 64 = 2 ^ 64 := ⟨rfl, rfl⟩
    rw [text_whole]
    split
    · have back : (n.toNat : Int) = n := by omega
      rw [ofText?_digits, JsonNumber.ofParts?, leading_toDigits (by omega)]
      simp [back]
    · have fits : 0 < (-n).toNat ∧ (-n).toNat ≤ twoTo 63 := by omega
      have back : -((-n).toNat : Int) = n := by omega
      rw [ofText?_minus_digits, JsonNumber.ofParts?, leading_toDigits (by omega)]
      simp only [fits.1, fits.2, back, List.isEmpty_nil, Bool.and_self, decide_true, Bool.or_true,
        if_true]
  | minusZero => rfl

end Numbers

end SparqlConformance.Json
