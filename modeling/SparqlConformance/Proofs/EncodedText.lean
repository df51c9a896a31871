import Mathlib.Tactic.IntervalCases
import SparqlConformance.Files.Url
import SparqlConformance.Proofs.WrittenTerms
/-!
# Encoded texts are read back

UTF-8 first: the bytes of a character are read as that character, whatever follows, and only ASCII characters
have bytes of ASCII characters, so markup is found in a text that is not decoded. Percent encoding keeps
bytes apart from reserved characters, so decoding gives the bytes of the text that was encoded.
-/
namespace SparqlConformance

namespace Utf8

section Leads

variable {a b c d : UInt8} {l : Lead} {rest : List UInt8}

theorem items_one (lead : lead? a = some l) (more : l.more = 0) :
    items (a :: rest) = some (Char.ofNat l.bits) :: items rest := by
  rw [items, lead]
  exact if_pos more

theorem items_two (lead : lead? a = some l) (more : l.more = 1) (hb : isWithin b l.low l.high = true) :
    items (a :: b :: rest) = some (Char.ofNat (l.bits * 64 + sixBits b)) :: items rest := by
  rw [items, lead]
  simp [more, hb]

theorem items_three (lead : lead? a = some l) (more : l.more = 2)
    (hb : isWithin b l.low l.high = true) (hc : isMore c = true) :
    items (a :: b :: c :: rest) =
      some (Char.ofNat ((l.bits * 64 + sixBits b) * 64 + sixBits c)) :: items rest := by
  rw [items, lead]
  simp [more, hb, hc]

theorem items_four (lead : lead? a = some l) (more : l.more = 3)
    (hb : isWithin b l.low l.high = true) (hc : isMore c = true) (hd : isMore d = true) :
    items (a :: b :: c :: d :: rest) =
      some (Char.ofNat (((l.bits * 64 + sixBits b) * 64 + sixBits c) * 64 + sixBits d)) ::
        items rest := by
  rw [items, lead]
  simp [more, hb, hc, hd]

end Leads

theorem toNat_ofNat {n : Nat} (h : n < 256) : (UInt8.ofNat n).toNat = n := by
  rw [UInt8.toNat_ofNat', Nat.mod_eq_of_lt h]

theorem isWithin_ofNat {n low high : Nat} (h : n < 256) (above : low ≤ n) (below : n ≤ high) :
    isWithin (UInt8.ofNat n) low high = true := by
  rw [isWithin, toNat_ofNat h, Bool.and_eq_true, decide_eq_true_iff, decide_eq_true_iff]
  exact ⟨above, below⟩

theorem sixBits_ofNat {n : Nat} (h : n < 64) : sixBits (UInt8.ofNat (n + 0x80)) = n := by
  have byte : n + 0x80 < 256 := by omega
  unfold sixBits
  rw [toNat_ofNat byte]
  omega

theorem isMore_ofNat {n : Nat} (h : n < 64) : isMore (UInt8.ofNat (n + 0x80)) = true :=
  isWithin_ofNat (by omega) (by omega) (by omega)

/-- What the first byte of a character that takes two bytes says. -/
theorem lead?_two {n : Nat} (low : 2 ≤ n) (high : n < 32) :
    lead? (UInt8.ofNat (n + 0xC0)) = some ⟨1, n, 0x80, 0xBF⟩ := by
  interval_cases n <;> rfl

/-- The first byte of a character that takes three bytes bounds the second one. -/
theorem exists_lead_three {n m : Nat} (hn : n < 16) (hm : m < 64) (low : n = 0 → 0x20 ≤ m)
    (high : n = 13 → m < 0x20) :
    ∃ l, lead? (UInt8.ofNat (n + 0xE0)) = some l ∧ l.more = 2 ∧ l.bits = n ∧
      isWithin (UInt8.ofNat (m + 0x80)) l.low l.high = true := by
  have lead : lead? (UInt8.ofNat (n + 0xE0)) = some ⟨2, n, if n = 0 then 0xA0 else 0x80,
      if n = 13 then 0x9F else 0xBF⟩ := by
    interval_cases n <;> rfl
  refine ⟨_, lead, rfl, rfl, isWithin_ofNat (by omega) ?_ ?_⟩
  · dsimp only
    split <;> omega
  · dsimp only
    split <;> omega

/-- The first byte of a character that takes four bytes bounds the second one. -/
theorem exists_lead_four {n m : Nat} (hn : n < 5) (hm : m < 64) (low : n = 0 → 0x10 ≤ m)
    (high : n = 4 → m < 0x10) :
    ∃ l, lead? (UInt8.ofNat (n + 0xF0)) = some l ∧ l.more = 3 ∧ l.bits = n ∧
      isWithin (UInt8.ofNat (m + 0x80)) l.low l.high = true := by
  have lead : lead? (UInt8.ofNat (n + 0xF0)) = some ⟨3, n, if n = 0 then 0x90 else 0x80,
      if n = 4 then 0x8F else 0xBF⟩ := by
    interval_cases n <;> rfl
  refine ⟨_, lead, rfl, rfl, isWithin_ofNat (by omega) ?_ ?_⟩
  · dsimp only
    split <;> omega
  · dsimp only
    split <;> omega

/-- The bytes of a character are read as that character. -/
theorem items_encodeChar (c : Char) (rest : List UInt8) :
    items (String.utf8EncodeChar c ++ rest) = some c :: items rest := by
  have valid : c.toNat < 0xD800 ∨ (0xDFFF < c.toNat ∧ c.toNat < 0x110000) := c.valid
  have whole : Char.ofNat c.toNat = c := Char.ofNat_toNat c
  unfold String.utf8EncodeChar
  generalize hv : c.val.toNat = v
  rw [show c.toNat = v from hv] at valid whole
  have last : sixBits (UInt8.ofNat (v % 0x40 + 0x80)) = v % 0x40 := sixBits_ofNat (by omega)
  have last_more : isMore (UInt8.ofNat (v % 0x40 + 0x80)) = true := isMore_ofNat (by omega)
  dsimp only
  split
  · have lead : lead? (UInt8.ofNat v) = some ⟨0, v, 0, 0⟩ := by
      unfold lead?
      rw [toNat_ofNat (by omega)]
      exact if_pos (by omega)
    rw [List.singleton_append, items_one lead rfl, whole]
  split
  · have lead := lead?_two (n := v / 64 % 0x20) (by omega) (by omega)
    have value : v / 64 % 0x20 * 64 + v % 0x40 = v := by omega
    rw [List.cons_append, List.singleton_append, items_two lead rfl last_more, last, value, whole]
  split
  · obtain ⟨l, lead, more, bits, second⟩ := exists_lead_three (n := v / 4096 % 0x10)
      (m := v / 64 % 0x40) (by omega) (by omega) (by omega) (by omega)
    have value : (v / 4096 % 0x10 * 64 + v / 64 % 0x40) * 64 + v % 0x40 = v := by omega
    rw [List.cons_append, List.cons_append, List.singleton_append,
      items_three lead more second last_more, bits, sixBits_ofNat (by omega), last, value, whole]
  · obtain ⟨l, lead, more, bits, second⟩ := exists_lead_four (n := v / 262144 % 0x08)
      (m := v / 4096 % 0x40) (by omega) (by omega) (by omega) (by omega)
    have third : isMore (UInt8.ofNat (v / 64 % 0x40 + 0x80)) = true := isMore_ofNat (by omega)
    have value : ((v / 262144 % 0x08 * 64 + v / 4096 % 0x40) * 64 + v / 64 % 0x40) * 64 +
        v % 0x40 = v := by omega
    rw [List.cons_append, List.cons_append, List.cons_append, List.singleton_append,
      items_four lead more second third last_more, bits, sixBits_ofNat (by omega),
      sixBits_ofNat (by omega), last, value, whole]

theorem items_encode (s : List Char) : items (encode s) = s.map some := by
  induction s with
  | nil => rfl
  | cons c s ih => rw [encode, List.flatMap_cons, items_encodeChar, ← encode, ih, List.map_cons]

theorem decodeLossy_encode (s : List Char) : decodeLossy (encode s) = s := by
  rw [decodeLossy, items_encode, List.map_map]
  exact List.map_id s

theorem decode?_encode (s : List Char) : decode? (encode s) = some s := by
  rw [decode?, items_encode, List.mapM_map]
  induction s with
  | nil => rfl
  | cons c s ih => 
    rw [List.mapM_cons, ih]
    rfl

/-- The bytes of a text, undecoded. -/
def raw (s : List Char) : List Char := undecoded (encode s)

theorem rawOf_ofList (s : List Char) : rawOf (String.ofList s) = raw s := by
  rw [rawOf, String.toList_ofList, raw]

@[simp] theorem raw_append (s t : List Char) : raw (s ++ t) = raw s ++ raw t := by
  simp [raw, undecoded, encode]

theorem raw_cons (c : Char) (s : List Char) : raw (c :: s) = raw [c] ++ raw s :=
  raw_append [c] s

theorem toNat_ofNat_byte (b : UInt8) : (Char.ofNat b.toNat).toNat = b.toNat := by
  have := b.toNat_lt
  have valid : b.toNat.isValidChar := Or.inl (by omega)
  rw [Char.ofNat, dif_pos valid]
  exact UInt32.toNat_ofNatLT

theorem bytesOf_undecoded (bytes : List UInt8) : bytesOf (undecoded bytes) = bytes := by
  rw [bytesOf, undecoded, List.map_map]
  refine (List.map_congr_left fun b _ => ?_).trans (List.map_id _)
  rw [Function.comp_apply, toNat_ofNat_byte, UInt8.ofNat_toNat]
  rfl

theorem decodePiece?_raw (s : List Char) : decodePiece? (raw s) = some s := by
  rw [decodePiece?, raw, bytesOf_undecoded, decode?_encode]

theorem raw_ascii {c : Char} (ascii : c.toNat < 128) : raw [c] = [c] := by
  have h : String.utf8EncodeChar c = [UInt8.ofNat c.toNat] := by
    unfold String.utf8EncodeChar
    exact if_pos (by exact Nat.le_of_lt_succ ascii)
  rw [raw, encode, List.flatMap_singleton, h, undecoded, List.map_singleton, toNat_ofNat (by omega),
    Char.ofNat_toNat]

theorem raw_cons_ascii {c : Char} (ascii : c.toNat < 128) (s : List Char) : raw (c :: s) = c :: raw s := by
  rw [raw_cons, raw_ascii ascii, List.singleton_append]

theorem raw_of_ascii {s : List Char} (ascii : ∀ c ∈ s, c.toNat < 128) : raw s = s := by
  induction s with
  | nil => rfl
  | cons c s ih =>
    rw [raw_cons_ascii (ascii c (List.mem_cons_self ..)),
      ih fun d hd => ascii d (List.mem_cons_of_mem _ hd)]

/-- Characters outside of ASCII have no byte of an ASCII character. -/
theorem not_ascii_of_mem_raw {c : Char} (h : 128 ≤ c.toNat) : ∀ d ∈ raw [c], 128 ≤ d.toNat := by
  have bytes : ∀ b ∈ String.utf8EncodeChar c, 128 ≤ b.toNat := by
    have valid : c.toNat < 0xD800 ∨ (0xDFFF < c.toNat ∧ c.toNat < 0x110000) := c.valid
    unfold String.utf8EncodeChar
    generalize hv : c.val.toNat = v
    rw [show c.toNat = v from hv] at valid h
    have above : ∀ {n}, 128 ≤ n → n < 256 → 128 ≤ (UInt8.ofNat n).toNat := by
      intro n low high
      rwa [toNat_ofNat high]
    dsimp only
    split
    · omega
    split
    · simp only [List.forall_mem_cons, List.not_mem_nil, false_implies, implies_true, and_true]
      exact ⟨above (by omega) (by omega), above (by omega) (by omega)⟩
    split
    · simp only [List.forall_mem_cons, List.not_mem_nil, false_implies, implies_true, and_true]
      exact ⟨above (by omega) (by omega), above (by omega) (by omega), above (by omega) (by omega)⟩
    · simp only [List.forall_mem_cons, List.not_mem_nil, false_implies, implies_true, and_true]
      exact ⟨above (by omega) (by omega), above (by omega) (by omega), above (by omega) (by omega),
        above (by omega) (by omega)⟩
  intro d hd
  rw [raw, encode, List.flatMap_singleton] at hd
  obtain ⟨b, hb, rfl⟩ := List.mem_map.mp hd
  rw [toNat_ofNat_byte]
  exact bytes b hb

end Utf8

namespace Url

open Text

theorem percentDecode_percentByte (b : UInt8) (rest : List Char) :
    percentDecode (percentByte b ++ rest) = b :: percentDecode rest := by
  have small := b.toNat_lt
  have digit : ∀ n, hexDigit? (upperHexDigit (n % 16)) = some (n % 16) := fun n =>
    hexDigit?_upperHexDigit _ (Nat.mod_lt _ (by omega))
  have value : 16 * (b.toNat / 16 % 16) + b.toNat % 16 = b.toNat := by omega
  rw [percentByte, hexByte, List.cons_append, List.cons_append, List.singleton_append, percentDecode,
    digit, digit]
  dsimp only
  rw [value, UInt8.ofNat_toNat]

theorem percentDecode_percentBytes (bs : List UInt8) (rest : List Char) :
    percentDecode (bs.flatMap percentByte ++ rest) = bs ++ percentDecode rest := by
  induction bs with
  | nil => rfl
  | cons b bs ih =>
    rw [List.flatMap_cons, List.append_assoc, percentDecode_percentByte, ih, List.cons_append]

theorem percentDecode_plain {c : Char} (h : c ≠ '%') (rest : List Char) :
    percentDecode (c :: rest) = String.utf8EncodeChar c ++ percentDecode rest := by
  rw [percentDecode.eq_def]
  split
  · rename_i nothing
    cases nothing
  · rename_i escape
    exact absurd (List.cons.inj escape).1 h
  · rename_i other
    obtain ⟨rfl, rfl⟩ := List.cons.inj other
    rfl

/-- Encoding a percent sign makes decoding give back the text, byte by byte. -/
theorem percentDecode_percentEncode {reserved : Char → Bool} (escapes : reserved '%' = true)
    (s rest : List Char) :
    percentDecode (percentEncode reserved s ++ rest) = Utf8.encode s ++ percentDecode rest := by
  induction s with
  | nil => rfl
  | cons c s ih =>
    rw [percentEncode, Utf8.encode, List.flatMap_cons, List.flatMap_cons, List.append_assoc,
      List.append_assoc, ← percentEncode, ← Utf8.encode, ← ih]
    split
    · rename_i kept
      refine percentDecode_plain ?_ _
      rintro rfl
      rw [escapes] at kept
      cases kept
    · exact percentDecode_percentBytes _ _

end Url

end SparqlConformance
