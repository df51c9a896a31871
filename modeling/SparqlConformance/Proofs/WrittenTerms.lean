import Mathlib.Data.List.TakeDrop
import SparqlConformance.Proofs.Renaming
import SparqlConformance.Rdf.NTriples
/-!
# Written terms end where they say

The written form of a term tells where it ends, whatever follows, as long as IRIs hold no closing
bracket and tags and labels are runs of plain characters. So terms with the same text are the same
term. For quoted texts this comes from reading them back.
-/
namespace SparqlConformance

open Text

theorem hexDigit?_upperHexDigit : ∀ d, d < 16 → hexDigit? (upperHexDigit d) = some d := by
  decide

theorem upperHexDigit_ne_plus : ∀ d, d < 16 → upperHexDigit d ≠ '+' := by
  decide

theorem scalar?_toNat (c : Char) : scalar? c.toNat = some c := by
  have hvalid : c.toNat < 0xD800 ∨ (0xDFFF < c.toNat ∧ c.toNat < 0x110000) := c.valid
  rw [scalar?, if_pos hvalid, Char.ofNat_toNat]

theorem unsigned?_cons {base : Nat} {digit : Char → Option Nat} {c : Char} (hc : c ≠ '+')
    (r : List Char) : unsigned? base digit (c :: r) = foldDigits base digit 0 (c :: r) := by
  unfold unsigned?
  split
  · rename_i hplus
    exact absurd (List.cons.inj hplus).1 hc
  · rfl

theorem foldDigits_hexBytes {n : Nat} (h : n < 0x10000) :
    foldDigits 16 hexDigit? 0 (hexByte (n / 256) ++ hexByte n) = some n := by
  have digit : ∀ n, hexDigit? (upperHexDigit (n % 16)) = some (n % 16) := fun n =>
    hexDigit?_upperHexDigit _ (Nat.mod_lt _ (by omega))
  have value : ((n / 256 / 16 % 16 * 16 + n / 256 % 16) * 16 + n / 16 % 16) * 16 + n % 16 = n := by
    omega
  simp only [hexByte, List.cons_append, List.nil_append, foldDigits, digit, Option.bind_some,
    Nat.zero_mul, Nat.zero_add, value]

/-- Four hexadecimal digits name the character they were written for. -/
theorem codePoint?_hexBytes {c : Char} (h : c.toNat < 0x10000) :
    NTriples.codePoint? (hexByte (c.toNat / 256) ++ hexByte c.toNat) = some c := by
  have first : upperHexDigit (c.toNat / 256 / 16 % 16) ≠ '+' :=
    upperHexDigit_ne_plus _ (Nat.mod_lt _ (by omega))
  have unsigned : unsigned? 16 hexDigit? (hexByte (c.toNat / 256) ++ hexByte c.toNat) =
      foldDigits 16 hexDigit? 0 (hexByte (c.toNat / 256) ++ hexByte c.toNat) := unsigned?_cons first _
  rw [NTriples.codePoint?, unsigned, foldDigits_hexBytes h, Option.bind_some, scalar?_toNat]

theorem readUntil_short (mode : NTriples.Mode) {c short : Char}
    (h : NTriples.shortEscape? short = some c) (rest : List Char) :
    NTriples.readUntil mode '"' true ('\\' :: short :: rest) =
      (NTriples.readUntil mode '"' true rest).map fun (s, r) => (c :: s, r) := by
  rw [NTriples.readUntil.eq_def]
  split
  case h_5 =>
    rename_i other heq
    obtain ⟨hslash, hrest⟩ := List.cons.inj heq
    exact (other short rest hslash.symm hrest.symm).elim
  all_goals simp_all [NTriples.shortEscape?]

/-- Reading undoes the escapes of one character. -/
theorem readUntil_escapeChar (mode : NTriples.Mode) (c : Char) (rest : List Char) :
    NTriples.readUntil mode '"' true (escapeChar c ++ rest) =
      (NTriples.readUntil mode '"' true rest).map fun (s, r) => (c :: s, r) := by
  unfold escapeChar
  split_ifs with hbackspace htab hfeed hform hreturn hquote hslash hcontrol
  · exact readUntil_short mode (by rw [hbackspace]; rfl) rest
  · exact readUntil_short mode (by rw [htab]; rfl) rest
  · exact readUntil_short mode (by rw [hfeed]; rfl) rest
  · exact readUntil_short mode (by rw [hform]; rfl) rest
  · exact readUntil_short mode (by rw [hreturn]; rfl) rest
  · exact readUntil_short mode (by rw [hquote]; rfl) rest
  · exact readUntil_short mode (by rw [hslash]; rfl) rest
  · have hpoint := codePoint?_hexBytes (c := c) (by omega)
    simp only [hexByte, List.cons_append, List.nil_append] at hpoint
    simp only [hexByte, List.cons_append, List.nil_append]
    rw [NTriples.readUntil.eq_def]
    simp only [hpoint]
  · simp only [List.cons_append, List.nil_append]
    rw [NTriples.readUntil.eq_def]
    split <;> simp_all

theorem readUntil_quoted (mode : NTriples.Mode) (s rest : List Char) :
    NTriples.readUntil mode '"' true (s.flatMap escapeChar ++ '"' :: rest) = some (s, rest) := by
  induction s with
  | nil => simp [NTriples.readUntil]
  | cons c s ih => rw [List.flatMap_cons, List.append_assoc, readUntil_escapeChar, ih, Option.map_some]

theorem quoted_append_inj {s t r r' : List Char} (h : quoted s ++ r = quoted t ++ r') :
    s = t ∧ r = r' := by
  simp only [quoted, List.cons_append, List.append_assoc, List.cons.injEq, true_and,
    List.nil_append] at h
  have hread := congrArg (NTriples.readUntil .strict '"' true) h
  rw [readUntil_quoted, readUntil_quoted] at hread
  exact Prod.mk.inj (Option.some.inj hread)

theorem cutFirst_append {c : Char} {a : List Char} (h : c ∉ a) (b : List Char) :
    cutFirst c (a ++ c :: b) = some (a, b) := by
  induction a with
  | nil => simp [cutFirst]
  | cons d a ih =>
    have hd : d ≠ c := fun hdc => h (hdc ▸ List.mem_cons_self ..)
    have ha : c ∉ a := fun hmem => h (List.mem_cons_of_mem _ hmem)
    simp [cutFirst, hd, ih ha]

theorem angled_append_inj {i j r s : List Char} (hi : '>' ∉ i) (hj : '>' ∉ j)
    (h : angled i ++ r = angled j ++ s) : i = j ∧ r = s := by
  simp only [angled, List.cons_append, List.append_assoc, List.cons.injEq, true_and,
    List.nil_append] at h
  have hcut := congrArg (cutFirst '>') h
  rw [cutFirst_append hi, cutFirst_append hj] at hcut
  exact Prod.mk.inj (Option.some.inj hcut)

theorem span_append {p : Char → Bool} {a b : List Char} (all : ∀ c ∈ a, p c = true)
    (stop : ∀ c, b.head? = some c → p c = false) : (a ++ b).span p = (a, b) := by
  have taken : b.takeWhile p = [] ∧ b.dropWhile p = b := by
    cases b with
    | nil => exact ⟨rfl, rfl⟩
    | cons c b => simp [stop c rfl]
  rw [List.span_eq_takeWhile_dropWhile, List.takeWhile_append_of_pos all,
    List.dropWhile_append_of_pos all, taken.1, taken.2, List.append_nil]

/-- Runs of characters of one class end where the class ends. -/
theorem run_append_inj {p : Char → Bool} {a b r s : List Char} (ha : ∀ c ∈ a, p c = true)
    (hb : ∀ c ∈ b, p c = true) (hr : ∀ c, r.head? = some c → p c = false)
    (hs : ∀ c, s.head? = some c → p c = false) (h : a ++ r = b ++ s) : a = b ∧ r = s := by
  induction a generalizing b with
  | nil =>
    cases b with
    | nil => exact ⟨rfl, h⟩
    | cons d b =>
      have hd : r.head? = some d := by
        rw [List.nil_append] at h
        rw [h]
        rfl
      have := hr d hd
      rw [hb d (List.mem_cons_self ..)] at this
      cases this
  | cons c a ih =>
    cases b with
    | nil =>
      have hc : s.head? = some c := by
        rw [List.nil_append] at h
        rw [← h]
        rfl
      have := hs c hc
      rw [ha c (List.mem_cons_self ..)] at this
      cases this
    | cons d b =>
      obtain ⟨hcd, hrest⟩ := List.cons.inj h
      obtain ⟨hab, hrs⟩ := ih (fun c hc => ha c (List.mem_cons_of_mem _ hc))
        (fun c hc => hb c (List.mem_cons_of_mem _ hc)) hrest
      exact ⟨by rw [hcd, hab], hrs⟩

/-- The characters of language tags and of numbers behind a mark. -/
def isRunChar (c : Char) : Bool := c.isAlphanum || c == '-' || c == '*'

theorem numbered_plain {mark : Char} (hmark : isRunChar mark = true) (n : Nat) :
    ∀ c ∈ mark :: Nat.toDigits 10 n, isRunChar c = true := by
  intro c hc
  rcases List.mem_cons.mp hc with rfl | hdigit
  · exact hmark
  · have := Nat.isDigit_of_mem_toDigits (by omega) (by omega) hdigit
    simp [isRunChar, Char.isAlphanum, this]

/-- What may follow a term in the lines of solutions and graphs. -/
def EndsTerm (rest : List Char) : Prop :=
  ∀ c, rest.head? = some c → c = ',' ∨ c = ']' ∨ c = ' '

theorem EndsTerm.not_run {rest : List Char} (h : EndsTerm rest) {c : Char}
    (hc : rest.head? = some c) : isRunChar c = false := by
  rcases h c hc with rfl | rfl | rfl <;> decide

theorem EndsTerm.ne_cons {c : Char} {r rest : List Char} (h : EndsTerm rest)
    (hc : c ≠ ',' ∧ c ≠ ']' ∧ c ≠ ' ') : rest ≠ c :: r := by
  rintro rfl
  obtain ⟨h1, h2, h3⟩ := hc
  rcases h c rfl with h | h | h
  · exact h1 h
  · exact h2 h
  · exact h3 h

/-- A tag is made of ASCII letters, digits and dashes, and a datatype holds no closing bracket. -/
def Literal.IsDelimited : Literal → Prop
  | plain _ => True
  | tagged _ language => ∀ c ∈ language.toList, c.isAlphanum = true ∨ c = '-'
  | typed _ datatype => '>' ∉ datatype.toList

instance : (l : Literal) → Decidable l.IsDelimited
  | .plain _ => .isTrue trivial
  | .tagged _ language =>
    inferInstanceAs (Decidable (∀ c ∈ language.toList, c.isAlphanum = true ∨ c = '-'))
  | .typed _ datatype => inferInstanceAs (Decidable ('>' ∉ datatype.toList))

/-- IRIs hold no closing bracket and language tags are plain; labels may be any text. -/
def Term.IsDelimited : Term → Prop
  | iri text => '>' ∉ text.toList
  | blank _ => True
  | literal l => l.IsDelimited

instance : (t : Term) → Decidable t.IsDelimited
  | .iri text => inferInstanceAs (Decidable ('>' ∉ text.toList))
  | .blank _ => .isTrue trivial
  | .literal l => inferInstanceAs (Decidable l.IsDelimited)

theorem Term.isDelimited_relabel {f : String → String} {t : Term} (h : t.IsDelimited) :
    (t.relabel f).IsDelimited := by
  cases t with
  | blank _ => trivial
  | iri _ => exact h
  | literal _ => exact h

/-- The labels of a term are runs of plain characters. -/
def Term.HasPlainLabel (t : Term) : Prop :=
  ∀ l, t.label? = some l → ∀ c ∈ l.toList, isRunChar c = true

/-- What stands behind the closing quote of a literal. -/
def Literal.qualifier : Literal → List Char
  | plain _ => []
  | tagged _ language => '@' :: language.toList
  | typed _ datatype => '^' :: '^' :: angled datatype.toList

theorem Literal.render_eq_append (l : Literal) :
    l.render = quoted l.value.toList ++ l.qualifier := by
  cases l with
  | plain v => exact (List.append_nil _).symm
  | tagged v language => rfl
  | typed v datatype => rfl

theorem Literal.render_append_inj {l m : Literal} (hl : l.IsDelimited) (hm : m.IsDelimited)
    {r s : List Char} (hr : EndsTerm r) (hs : EndsTerm s) (h : l.render ++ r = m.render ++ s) :
    l = m ∧ r = s := by
  have tag : ∀ {language : String}, (∀ c ∈ language.toList, c.isAlphanum = true ∨ c = '-') →
      ∀ c ∈ language.toList, isRunChar c = true := by
    intro language hlanguage c hc
    rcases hlanguage c hc with h | rfl
    · simp [isRunChar, h]
    · decide
  rw [render_eq_append, render_eq_append, List.append_assoc, List.append_assoc] at h
  obtain ⟨hvalue, hrest⟩ := quoted_append_inj h
  have value := String.toList_injective hvalue
  cases l with
  | plain v =>
    cases m with
    | plain w => exact ⟨congrArg Literal.plain value, hrest⟩
    | tagged w k => exact absurd hrest (hr.ne_cons (by decide))
    | typed w d => exact absurd hrest (hr.ne_cons (by decide))
  | tagged v j =>
    cases m with
    | plain w => exact absurd hrest.symm (hs.ne_cons (by decide))
    | tagged w k =>
      obtain ⟨htag, hend⟩ := run_append_inj (tag hl) (tag hm) (fun _ => hr.not_run)
        (fun _ => hs.not_run) (List.cons.inj hrest).2
      exact ⟨congrArg₂ Literal.tagged value (String.toList_injective htag), hend⟩
    | typed w d => simp [qualifier] at hrest
  | typed v d =>
    cases m with
    | plain w => exact absurd hrest.symm (hs.ne_cons (by decide))
    | tagged w k => simp [qualifier] at hrest
    | typed w e =>
      simp only [qualifier, List.cons_append, List.cons.injEq, true_and] at hrest
      obtain ⟨hdatatype, hend⟩ := angled_append_inj hl hm hrest
      exact ⟨congrArg₂ Literal.typed value (String.toList_injective hdatatype), hend⟩

/-- A written term tells where it ends. -/
theorem Term.render_append_inj {t u : Term} (ht : t.IsDelimited) (hu : u.IsDelimited)
    (plain_t : t.HasPlainLabel) (plain_u : u.HasPlainLabel) {r s : List Char} (hr : EndsTerm r)
    (hs : EndsTerm s) (h : t.render ++ r = u.render ++ s) : t = u ∧ r = s := by
  have headed : ∀ m : Literal, ∃ rest, m.render = '"' :: rest := by
    intro m
    cases m <;> exact ⟨_, rfl⟩
  cases t with
  | iri i =>
    cases u with
    | iri j =>
      obtain ⟨hij, hrest⟩ := angled_append_inj ht hu h
      exact ⟨by rw [String.toList_injective hij], hrest⟩
    | blank k => simp [Term.render, angled] at h
    | literal m =>
      obtain ⟨rest, hm⟩ := headed m
      simp [Term.render, angled, hm] at h
  | blank l =>
    cases u with
    | iri j => simp [Term.render, angled] at h
    | blank k =>
      simp only [Term.render, List.cons_append, List.cons.injEq, true_and] at h
      obtain ⟨hlk, hrest⟩ := run_append_inj (plain_t l rfl) (plain_u k rfl) (fun _ => hr.not_run)
        (fun _ => hs.not_run) h
      exact ⟨by rw [String.toList_injective hlk], hrest⟩
    | literal m =>
      obtain ⟨rest, hm⟩ := headed m
      simp [Term.render, hm] at h
  | literal l =>
    cases u with
    | iri j =>
      obtain ⟨rest, hl⟩ := headed l
      simp [Term.render, angled, hl] at h
    | blank k =>
      obtain ⟨rest, hl⟩ := headed l
      simp [Term.render, hl] at h
    | literal m =>
      obtain ⟨hlm, hrest⟩ := Literal.render_append_inj ht hu hr hs h
      exact ⟨by rw [hlm], hrest⟩

end SparqlConformance
