import Mathlib.Logic.Function.Basic
import SparqlConformance.Proofs.JsonScalars
/-!
# JSON values with the same text

Numbers may be different and yet be written alike. With one number in the place of all that have its text, a
value tells its text, and the text tells the value: two values have the same text exactly when they differ in
such numbers only. The text of a value ends where the value ends, so this holds in front of anything that may
follow a value.
-/
namespace SparqlConformance

namespace JsonNumber

/-- One of the numbers with the same text. -/
noncomputable def representative (n : JsonNumber) : JsonNumber := Function.invFun text n.text

theorem text_representative (n : JsonNumber) : n.representative.text = n.text :=
  Function.invFun_eq ⟨n, rfl⟩

theorem representative_eq {n m : JsonNumber} (h : n.text = m.text) : n.representative = m.representative :=
  congrArg (Function.invFun text) h

/-- The characters that numbers are written with. -/
def isNumberChar (c : Char) : Bool := c.isDigit || c == '-' || c == '+' || c == '.' || c == 'e'

/-- Texts of one or more characters of numbers. -/
def IsNumberText (s : List Char) : Prop := s ≠ [] ∧ ∀ c ∈ s, isNumberChar c = true

theorem isNumberChar_of_isDigit {c : Char} (h : c.isDigit = true) : isNumberChar c = true := by
  rw [isNumberChar, h]
  rfl

theorem digits_shortest (x : Binary64) : ∀ c ∈ x.shortest.digits, isNumberChar c = true := by
  have each : ∀ top fuel places, ∀ c ∈ (x.shortestFrom top fuel places).digits, isNumberChar c = true := by
    intro top fuel
    induction fuel with
    | zero => exact fun places => List.forall_mem_singleton.mpr rfl
    | succ fuel ih =>
      intro places c hc
      rw [Binary64.shortestFrom] at hc
      split at hc
      · rename_i n _
        have part : c ∈ Nat.toDigits 10 n := by
          have front := List.mem_reverse.mp hc
          exact List.mem_reverse.mp ((List.dropWhile_sublist _).subset front)
        exact isNumberChar_of_isDigit (Json.isDigit_of_mem_toDigits c part)
      · exact ih (places + 1) c hc
  exact each _ _ _

theorem isNumberText_realText (x : Binary64) : IsNumberText (realText x) := by
  have digits := digits_shortest x
  have zeros : ∀ n, ∀ c ∈ List.replicate n '0', isNumberChar c = true := by
    intro n c hc
    rw [List.eq_of_mem_replicate hc]
    rfl
  have taken : ∀ n, ∀ c ∈ x.shortest.digits.take n, isNumberChar c = true := fun n c hc =>
    digits c (List.mem_of_mem_take hc)
  have dropped : ∀ n, ∀ c ∈ x.shortest.digits.drop n, isNumberChar c = true := fun n c hc =>
    digits c (List.mem_of_mem_drop hc)
  have power : ∀ n, ∀ c ∈ Nat.toDigits 10 n, isNumberChar c = true := fun n c hc =>
    isNumberChar_of_isDigit (Json.isDigit_of_mem_toDigits c hc)
  have marks : isNumberChar '.' = true ∧ isNumberChar '0' = true ∧ isNumberChar 'e' = true ∧
      isNumberChar '-' = true ∧ isNumberChar '+' = true := by decide
  obtain ⟨dot, zero, mark, minus, plus⟩ := marks
  have sign : ∀ negative : Prop, [Decidable negative] → isNumberChar (if negative then '-' else '+') = true := by
    intro negative _
    split
    · exact minus
    · exact plus
  unfold realText IsNumberText
  dsimp only
  split
  · exact ⟨List.cons_ne_nil _ _, List.all_eq_true.mp (by decide)⟩
  split
  · split
    · refine ⟨by simp, fun c hc => ?_⟩
      simp only [List.mem_append, List.mem_cons, List.not_mem_nil, or_false] at hc
      rcases hc with (hc | hc) | rfl | rfl
      exacts [digits c hc, zeros _ c hc, dot, zero]
    · refine ⟨by simp, fun c hc => ?_⟩
      simp only [List.mem_append, List.mem_cons] at hc
      rcases hc with hc | rfl | hc
      exacts [taken _ c hc, dot, dropped _ c hc]
  split
  · refine ⟨by simp, fun c hc => ?_⟩
    simp only [List.mem_append, List.mem_cons, List.cons_append] at hc
    rcases hc with rfl | rfl | hc | hc
    exacts [zero, dot, zeros _ c hc, digits c hc]
  · refine ⟨by simp, fun c hc => ?_⟩
    rw [List.mem_append, List.mem_cons, List.mem_cons] at hc
    rcases hc with hc | rfl | rfl | hc
    · split at hc
      · exact digits c hc
      · rw [List.mem_append, List.mem_cons] at hc
        rcases hc with hc | rfl | hc
        exacts [taken _ c hc, dot, dropped _ c hc]
    · exact mark
    · exact sign _
    · exact power _ c hc

theorem isNumberText_text (n : JsonNumber) : IsNumberText n.text := by
  have minus : ∀ {s : List Char}, (∀ c ∈ s, isNumberChar c = true) → IsNumberText ('-' :: s) := fun h =>
    ⟨List.cons_ne_nil _ _, List.forall_mem_cons.mpr ⟨rfl, h⟩⟩
  have digits : ∀ m, ∀ c ∈ Nat.toDigits 10 m, isNumberChar c = true := fun m c hc =>
    isNumberChar_of_isDigit (Json.isDigit_of_mem_toDigits c hc)
  cases n with
  | whole n =>
    rw [Json.text_whole]
    split
    · exact ⟨Json.toDigits_ne_nil _, digits _⟩
    · exact minus (digits _)
  | real negative x =>
    rw [text]
    split
    · exact minus (isNumberText_realText x).2
    · exact isNumberText_realText x

end JsonNumber

namespace Json

mutual

/-- The value with one number in the place of all that have the same text. -/
noncomputable def representative : Json → Json
  | number n => number n.representative
  | array items => array (representatives items)
  | object members => object (memberRepresentatives members)
  | null => null
  | bool b => bool b
  | string s => string s

noncomputable def representatives : List Json → List Json
  | [] => []
  | v :: items => v.representative :: representatives items

noncomputable def memberRepresentatives : List (String × Json) → List (String × Json)
  | [] => []
  | (name, v) :: members => (name, v.representative) :: memberRepresentatives members

end

theorem representatives_eq_map (items : List Json) : representatives items = items.map representative := by
  induction items with
  | nil => rfl
  | cons v items ih => rw [representatives, ih, List.map_cons]

theorem memberRepresentatives_eq_map (members : List (String × Json)) :
    memberRepresentatives members = members.map fun (name, v) => (name, v.representative) := by
  induction members with
  | nil => rfl
  | cons m members ih => rw [memberRepresentatives, ih, List.map_cons]

mutual

theorem pretty_representative (depth : Nat) (v : Json) : pretty depth v.representative = pretty depth v := by
  cases v with
  | number n => exact n.text_representative
  | array items =>
    cases items with
    | nil => rfl
    | cons v items =>
      rw [representative, representatives, pretty, pretty, pretty_representative, prettyItems_representatives]
  | object members =>
    cases members with
    | nil => rfl
    | cons m members =>
      rw [representative, memberRepresentatives, pretty, pretty, pretty_representative,
        prettyMembers_representatives]
  | _ => rfl

theorem prettyItems_representatives (depth : Nat) (items : List Json) :
    prettyItems depth (representatives items) = prettyItems depth items := by
  cases items with
  | nil => rfl
  | cons v items =>
    rw [representatives, prettyItems, prettyItems, pretty_representative, prettyItems_representatives]

theorem prettyMembers_representatives (depth : Nat) (members : List (String × Json)) :
    prettyMembers depth (memberRepresentatives members) = prettyMembers depth members := by
  cases members with
  | nil => rfl
  | cons m members =>
    rw [memberRepresentatives, prettyMembers, prettyMembers, pretty_representative,
      prettyMembers_representatives]

end

mutual

theorem compact_representative (v : Json) : compact v.representative = compact v := by
  cases v with
  | number n => exact n.text_representative
  | array items => rw [representative, compact, compact, compactItems_representatives]
  | object members => rw [representative, compact, compact, compactMembers_representatives]
  | _ => rfl

theorem compactItems_representatives (items : List Json) :
    compactItems (representatives items) = compactItems items := by
  match items with
  | [] => rfl
  | [v] => rw [representatives, representatives, compactItems, compactItems, compact_representative]
  | v :: w :: items =>
    have rest := compactItems_representatives (w :: items)
    rw [representatives] at rest
    rw [representatives, representatives, compactItems, compactItems, compact_representative, rest]

theorem compactMembers_representatives (members : List (String × Json)) :
    compactMembers (memberRepresentatives members) = compactMembers members := by
  match members with
  | [] => rfl
  | [(name, v)] =>
    rw [memberRepresentatives, memberRepresentatives, compactMembers, compactMembers, compact_representative]
  | (name, v) :: w :: members =>
    have rest := compactMembers_representatives (w :: members)
    rw [memberRepresentatives] at rest
    rw [memberRepresentatives, memberRepresentatives, compactMembers, compactMembers, compact_representative,
      rest]

end

section Telling

/-- What kind of value starts with a character. -/
def kindOf (c : Char) : Nat :=
  if c = 'n' then 0
  else if c = 't' ∨ c = 'f' then 1
  else if c = '"' then 2
  else if c = '[' then 3
  else if c = '{' then 4
  else 5

def kind : Json → Nat
  | null => 0
  | bool _ => 1
  | string _ => 2
  | array _ => 3
  | object _ => 4
  | number _ => 5

theorem kindOf_of_isNumberChar {c : Char} (h : JsonNumber.isNumberChar c = true) : kindOf c = 5 := by
  have other : ∀ d ∈ ['n', 't', 'f', '"', '[', '{'], c ≠ d := by
    rintro d hd rfl
    simp only [List.mem_cons, List.not_mem_nil, or_false] at hd
    rcases hd with rfl | rfl | rfl | rfl | rfl | rfl <;> cases h
  simp only [List.forall_mem_cons, List.not_mem_nil, false_imp_iff, implies_true, and_true] at other
  simp [kindOf, other]

/-- The first character of a text tells what kind of value it is the text of. -/
theorem exists_pretty_eq_cons (depth : Nat) (v : Json) :
    ∃ c r, pretty depth v = c :: r ∧ kindOf c = v.kind := by
  cases v with
  | null => exact ⟨'n', _, rfl, rfl⟩
  | bool b => cases b <;> exact ⟨_, _, rfl, rfl⟩
  | string s => exact ⟨'"', _, rfl, rfl⟩
  | array items => cases items <;> exact ⟨'[', _, rfl, rfl⟩
  | object members => cases members <;> exact ⟨'{', _, rfl, rfl⟩
  | number n =>
    obtain ⟨nonempty, chars⟩ := n.isNumberText_text
    obtain ⟨c, r, htext⟩ := List.exists_cons_of_ne_nil nonempty
    exact ⟨c, r, htext, kindOf_of_isNumberChar (chars c (htext ▸ List.mem_cons_self))⟩

/-- Numbers end where what follows them starts. -/
theorem eq_of_isNumberText {s t x y : List Char} (hs : JsonNumber.IsNumberText s)
    (ht : JsonNumber.IsNumberText t) (ends : EndsNumber x) (ends' : EndsNumber y) (h : s ++ x = t ++ y) :
    s = t ∧ x = y := by
  have stops : ∀ {x : List Char}, EndsNumber x → x.takeWhile JsonNumber.isNumberChar = [] := by
    intro x ends
    cases x with
    | nil => rfl
    | cons c x =>
      have other : JsonNumber.isNumberChar c = false := by
        have cases := ends c rfl
        simp only [isBlank, Bool.or_eq_true, beq_iff_eq] at cases
        rcases cases with rfl | ((rfl | rfl) | rfl) | rfl <;> decide
      rw [List.takeWhile_cons_of_neg (by rw [other]; exact Bool.false_ne_true)]
  have front := congrArg (List.takeWhile JsonNumber.isNumberChar) h
  rw [List.takeWhile_append_of_pos hs.2, List.takeWhile_append_of_pos ht.2, stops ends, stops ends',
    List.append_nil, List.append_nil] at front
  subst front
  exact ⟨rfl, List.append_cancel_left h⟩

theorem eq_of_quoted {s t : String} {x y : List Char} (h : quoted s ++ x = quoted t ++ y) : s = t ∧ x = y := by
  have read : ∀ (u : String) z, string? (Utf8.raw (quoted u ++ z)).tail = some (u, Utf8.raw z) := by
    intro u z
    rw [Utf8.raw_append, raw_quoted, List.cons_append, List.tail_cons, List.append_assoc,
      List.singleton_append, string?_quoted]
  have both := (read s x).symm.trans ((congrArg (fun z => string? (Utf8.raw z).tail) h).trans (read t y))
  obtain ⟨rfl, -⟩ := Prod.mk.inj (Option.some.inj both)
  exact ⟨rfl, List.append_cancel_left h⟩

theorem endsNumber_prettyItems_append (depth : Nat) (items : List Json) (x : List Char) :
    EndsNumber (prettyItems depth items ++ x) := by
  cases items with
  | nil => exact fun c hc => Or.inr (by rw [← Option.some.inj hc]; rfl)
  | cons v items => exact fun c hc => Or.inl (Option.some.inj hc).symm

theorem endsNumber_prettyMembers_append (depth : Nat) (members : List (String × Json)) (x : List Char) :
    EndsNumber (prettyMembers depth members ++ x) := by
  cases members with
  | nil => exact fun c hc => Or.inr (by rw [← Option.some.inj hc]; rfl)
  | cons m members => exact fun c hc => Or.inl (Option.some.inj hc).symm

mutual

/-- Where a value ends in a text, and which one it is up to its numbers, is told by the text. -/
theorem representative_eq_of_pretty {depth : Nat} {v w : Json} {x y : List Char} (ends : EndsNumber x)
    (ends' : EndsNumber y) (h : pretty depth v ++ x = pretty depth w ++ y) :
    v.representative = w.representative ∧ x = y := by
  have same_kind : v.kind = w.kind := by
    obtain ⟨c, r, hv, hc⟩ := exists_pretty_eq_cons depth v
    obtain ⟨d, r', hw, hd⟩ := exists_pretty_eq_cons depth w
    rw [hv, hw] at h
    rw [← hc, ← hd, (List.cons.inj h).1]
  cases v with
  | null =>
    cases w with
    | null => exact ⟨rfl, List.append_cancel_left h⟩
    | _ => cases same_kind
  | bool b =>
    cases w with
    | bool b' =>
      cases b <;> cases b'
      · exact ⟨rfl, List.append_cancel_left h⟩
      · cases (List.cons.inj h).1
      · cases (List.cons.inj h).1
      · exact ⟨rfl, List.append_cancel_left h⟩
    | _ => cases same_kind
  | number n =>
    cases w with
    | number m =>
      obtain ⟨text, rest⟩ := eq_of_isNumberText n.isNumberText_text m.isNumberText_text ends ends' h
      exact ⟨congrArg number (JsonNumber.representative_eq text), rest⟩
    | _ => cases same_kind
  | string s =>
    cases w with
    | string t =>
      obtain ⟨rfl, rest⟩ := eq_of_quoted h
      exact ⟨rfl, rest⟩
    | _ => cases same_kind
  | array items =>
    cases w with
    | array items' =>
      cases items with
      | nil =>
        cases items' with
        | nil => exact ⟨rfl, List.append_cancel_left h⟩
        | cons v' items' => cases (List.cons.inj (List.cons.inj h).2).1
      | cons v items =>
        cases items' with
        | nil => cases (List.cons.inj (List.cons.inj h).2).1
        | cons v' items' =>
          -- but for the bracket, the items are written as they are behind a comma
          have behind : prettyItems depth (v :: items) ++ x = prettyItems depth (v' :: items') ++ y :=
            congrArg (',' :: ·) (List.cons.inj h).2
          obtain ⟨same, rest⟩ := representatives_eq_of_prettyItems behind
          exact ⟨congrArg array same, rest⟩
    | _ => cases same_kind
  | object members =>
    cases w with
    | object members' =>
      cases members with
      | nil =>
        cases members' with
        | nil => exact ⟨rfl, List.append_cancel_left h⟩
        | cons m' members' => cases (List.cons.inj (List.cons.inj h).2).1
      | cons m members =>
        cases members' with
        | nil => cases (List.cons.inj (List.cons.inj h).2).1
        | cons m' members' =>
          have behind : prettyMembers depth (m :: members) ++ x = prettyMembers depth (m' :: members') ++ y :=
            congrArg (',' :: ·) (List.cons.inj h).2
          obtain ⟨same, rest⟩ := memberRepresentatives_eq_of_prettyMembers behind
          exact ⟨congrArg object same, rest⟩
    | _ => cases same_kind

theorem representatives_eq_of_prettyItems {depth : Nat} {items items' : List Json} {x y : List Char}
    (h : prettyItems depth items ++ x = prettyItems depth items' ++ y) :
    representatives items = representatives items' ∧ x = y := by
  cases items with
  | nil =>
    cases items' with
    | nil => exact ⟨rfl, List.append_cancel_left h⟩
    | cons v' items' => cases (List.cons.inj h).1
  | cons v items =>
    cases items' with
    | nil => cases (List.cons.inj h).1
    | cons v' items' =>
      have text : ∀ (v : Json) items z, prettyItems depth (v :: items) ++ z =
          (',' :: indent (depth + 1)) ++ (pretty (depth + 1) v ++ (prettyItems depth items ++ z)) := by
        intro v items z
        simp [prettyItems]
      rw [text, text] at h
      obtain ⟨same, rest⟩ := representative_eq_of_pretty (endsNumber_prettyItems_append depth items x)
        (endsNumber_prettyItems_append depth items' y) (List.append_cancel_left h)
      obtain ⟨later, rest⟩ := representatives_eq_of_prettyItems rest
      rw [representatives, representatives, same, later]
      exact ⟨rfl, rest⟩

theorem memberRepresentatives_eq_of_prettyMembers {depth : Nat} {members members' : List (String × Json)}
    {x y : List Char} (h : prettyMembers depth members ++ x = prettyMembers depth members' ++ y) :
    memberRepresentatives members = memberRepresentatives members' ∧ x = y := by
  cases members with
  | nil =>
    cases members' with
    | nil => exact ⟨rfl, List.append_cancel_left h⟩
    | cons m' members' => cases (List.cons.inj h).1
  | cons m members =>
    cases members' with
    | nil => cases (List.cons.inj h).1
    | cons m' members' =>
      have text : ∀ (m : String × Json) members z, prettyMembers depth (m :: members) ++ z =
          (',' :: indent (depth + 1)) ++ (quoted m.1 ++ ([':', ' '] ++
            (pretty (depth + 1) m.2 ++ (prettyMembers depth members ++ z)))) := by
        intro m members z
        simp [prettyMembers]
      rw [text, text] at h
      obtain ⟨name, rest⟩ := eq_of_quoted (List.append_cancel_left h)
      obtain ⟨same, rest⟩ := representative_eq_of_pretty (endsNumber_prettyMembers_append depth members x)
        (endsNumber_prettyMembers_append depth members' y) (List.append_cancel_left rest)
      obtain ⟨later, rest⟩ := memberRepresentatives_eq_of_prettyMembers rest
      rw [memberRepresentatives, memberRepresentatives, name, same, later]
      exact ⟨rfl, rest⟩

end

/-- Values have the same text exactly when they differ in numbers with the same text only. -/
theorem pretty_eq_iff {depth : Nat} {v w : Json} :
    pretty depth v = pretty depth w ↔ v.representative = w.representative := by
  constructor
  · intro h
    have nothing : EndsNumber [] := fun _ hc => by cases hc
    exact (representative_eq_of_pretty nothing nothing (congrArg (· ++ []) h)).1
  · intro h
    rw [← pretty_representative, h, pretty_representative]

end Telling

end Json

end SparqlConformance
