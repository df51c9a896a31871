import SparqlConformance.Proofs.JsonScalars
import SparqlConformance.Proofs.JsonSpelling
/-!
# JSON text is read back

A value is written so that it is read back, as long as its numbers are integers. The text is followed
token by token: every token gives its event, in front of whatever follows it, and all of them together give
the events of a spelling of the value.
-/
namespace SparqlConformance.Json

open Text Utf8

section Scanning

/-- A place in a text: what may come next, what is open, and the text from there on. -/
structure Place where
  expected : Expected
  inside : List Container
  text : List Char

/-- Scanning gives the events between two places of a text; the steps that are left are enough again. -/
def Scans (p : Place) (es : List Event) (q : Place) : Prop :=
  ∀ fuel, p.text.length < fuel → ∃ fuel', q.text.length < fuel' ∧
    scan fuel p.expected p.inside p.text = es ++ scan fuel' q.expected q.inside q.text

variable {e : Expected} {i : List Container} {rest : List Char}

theorem Scans.trans {p q r : Place} {es fs : List Event} (h : Scans p es q) (h' : Scans q fs r) :
    Scans p (es ++ fs) r := by
  intro fuel enough
  obtain ⟨fuel', enough', heq⟩ := h fuel enough
  obtain ⟨fuel'', enough'', heq'⟩ := h' fuel' enough'
  exact ⟨fuel'', enough'', by rw [heq, heq', List.append_assoc]⟩

theorem scans_of_step {p q : Place} {es : List Event} (shorter : q.text.length < p.text.length)
    (step : ∀ fuel, scan (fuel + 1) p.expected p.inside p.text =
      es ++ scan fuel q.expected q.inside q.text) : Scans p es q := by
  intro fuel enough
  obtain ⟨fuel, rfl⟩ := Nat.exists_eq_add_one.mpr (Nat.zero_lt_of_lt enough)
  exact ⟨fuel, by omega, step fuel⟩

theorem scan_eq_of_dropWhile {s t : List Char} (same : s.dropWhile isBlank = t.dropWhile isBlank)
    (fuel : Nat) : scan fuel e i s = scan fuel e i t := by
  cases fuel with
  | zero => rfl
  | succ fuel =>
    unfold scan
    rw [same]

theorem scans_blanks (blanks : List Char) (blank : ∀ c ∈ blanks, isBlank c = true) :
    Scans ⟨e, i, blanks ++ rest⟩ [] ⟨e, i, rest⟩ := by
  intro fuel enough
  refine ⟨fuel, ?_, scan_eq_of_dropWhile (List.dropWhile_append_of_pos blank) fuel⟩
  simp only [List.length_append] at enough ⊢
  omega

/-- Places where a value may start. -/
def AwaitsValue (e : Expected) (i : List Container) : Prop :=
  e = .value ∨ e = .itemOrEnd ∧ ∃ j, i = .array :: j

theorem scans_beginArray (awaits : AwaitsValue e i) :
    Scans ⟨e, i, '[' :: rest⟩ [.beginArray] ⟨.itemOrEnd, .array :: i, rest⟩ := by
  rcases awaits with rfl | ⟨rfl, j, rfl⟩ <;> exact scans_of_step (Nat.lt_succ_self _) fun _ => rfl

theorem scans_beginObject (awaits : AwaitsValue e i) :
    Scans ⟨e, i, '{' :: rest⟩ [.beginObject] ⟨.keyOrEnd, .object :: i, rest⟩ := by
  rcases awaits with rfl | ⟨rfl, j, rfl⟩ <;> exact scans_of_step (Nat.lt_succ_self _) fun _ => rfl

theorem scans_endArray (ends : e = .itemOrEnd ∨ e = .afterValue) :
    Scans ⟨e, .array :: i, ']' :: rest⟩ [.endArray] ⟨.afterValue, i, rest⟩ := by
  rcases ends with rfl | rfl <;> exact scans_of_step (Nat.lt_succ_self _) fun _ => rfl

theorem scans_endObject (ends : e = .keyOrEnd ∨ e = .afterValue) :
    Scans ⟨e, .object :: i, '}' :: rest⟩ [.endObject] ⟨.afterValue, i, rest⟩ := by
  rcases ends with rfl | rfl <;> exact scans_of_step (Nat.lt_succ_self _) fun _ => rfl

theorem scans_nextItem :
    Scans ⟨.afterValue, .array :: i, ',' :: rest⟩ [] ⟨.value, .array :: i, rest⟩ :=
  scans_of_step (Nat.lt_succ_self _) fun _ => rfl

theorem scans_nextMember :
    Scans ⟨.afterValue, .object :: i, ',' :: rest⟩ [] ⟨.key, .object :: i, rest⟩ :=
  scans_of_step (Nat.lt_succ_self _) fun _ => rfl

theorem scans_colon : Scans ⟨.colon, i, ':' :: rest⟩ [] ⟨.value, i, rest⟩ :=
  scans_of_step (Nat.lt_succ_self _) fun _ => rfl

theorem scans_key (awaits : e = .keyOrEnd ∨ e = .key) (name : String) :
    Scans ⟨e, .object :: i, raw (quoted name) ++ rest⟩ [.key name] ⟨.colon, .object :: i, rest⟩ := by
  have read := string?_quoted name rest
  have shorter : rest.length < ('"' :: (raw (name.toList.flatMap escapeChar) ++ '"' :: rest)).length := by
    simp only [List.length_cons, List.length_append]
    omega
  rw [raw_quoted, List.cons_append, List.append_assoc, List.singleton_append]
  generalize raw (name.toList.flatMap escapeChar) ++ '"' :: rest = body at read shorter
  refine scans_of_step shorter fun fuel => ?_
  have skipped : ('"' :: body).dropWhile isBlank = '"' :: body := rfl
  conv_lhs => unfold scan
  rcases awaits with rfl | rfl <;> simp only [skipped, read, List.singleton_append]

/-- Nothing that starts another event starts a scalar. -/
theorem exists_of_scalarEvent? {s : List Char} {event : Event} (h : scalarEvent? s = some (event, rest)) :
    ∃ c r, s = c :: r ∧ isBlank c = false ∧ c ≠ '[' ∧ c ≠ '{' ∧ c ≠ ']' := by
  cases s with
  | nil => cases h
  | cons c r =>
    have other : c ∉ [' ', '\t', '\n', '\r', '[', '{', ']'] := by
      intro hc
      simp only [List.mem_cons, List.not_mem_nil, or_false] at hc
      rcases hc with rfl | rfl | rfl | rfl | rfl | rfl | rfl <;> cases h
    simp only [List.mem_cons, List.not_mem_nil, or_false, not_or] at other
    obtain ⟨hspace, htab, hfeed, hreturn, harray, hobject, hend⟩ := other
    exact ⟨c, r, rfl, by simp [isBlank, hspace, htab, hfeed, hreturn], harray, hobject, hend⟩

theorem scan_scalar (awaits : AwaitsValue e i) {s : List Char} {event : Event}
    (h : scalarEvent? s = some (event, rest)) (fuel : Nat) :
    scan (fuel + 1) e i s = event :: scan fuel .afterValue i rest := by
  obtain ⟨c, r, rfl, blank, harray, hobject, hend⟩ := exists_of_scalarEvent? h
  have skipped : (c :: r).dropWhile isBlank = c :: r := by
    rw [List.dropWhile_cons, blank, if_neg Bool.false_ne_true]
  conv_lhs => unfold scan
  rw [skipped]
  rcases awaits with rfl | ⟨rfl, j, rfl⟩
  · simp [h, harray, hobject]
  · simp [h, harray, hobject, hend]

theorem scans_scalar (awaits : AwaitsValue e i) {s : List Char} (nonempty : s ≠ []) {event : Event}
    (h : scalarEvent? (s ++ rest) = some (event, rest)) :
    Scans ⟨e, i, s ++ rest⟩ [event] ⟨.afterValue, i, rest⟩ := by
  refine scans_of_step ?_ fun fuel => scan_scalar awaits h fuel
  have := List.length_pos_of_ne_nil nonempty
  simp only [List.length_append]
  omega

theorem scalarEvent?_of_number? {s text : List Char} (h : number? s = some (text, rest)) :
    scalarEvent? s = some (.number text, rest) := by
  cases s with
  | nil => cases h
  | cons c r =>
    have other : c ∉ ['"', 't', 'f', 'n'] := by
      intro hc
      simp only [List.mem_cons, List.not_mem_nil, or_false] at hc
      rcases hc with rfl | rfl | rfl | rfl <;> cases h
    simp only [List.mem_cons, List.not_mem_nil, or_false, not_or] at other
    simp [scalarEvent?, other, h]

theorem raw_text {n : JsonNumber} (integer : IsInteger n) : raw n.text = n.text := by
  have digits : ∀ m, ∀ c ∈ Nat.toDigits 10 m, c.toNat < 128 := by
    intro m c hc
    have := isDigit_iff.mp (isDigit_of_mem_toDigits c hc)
    omega
  cases integer with
  | whole low high =>
    rw [text_whole]
    split
    · exact raw_of_ascii (digits _)
    · exact raw_of_ascii (List.forall_mem_cons.mpr ⟨by decide, digits _⟩)
  | minusZero => rfl

/-- Values that are read back from their text: names stand once and in order, numbers are integers, and
arrays and objects are not too deep in each other. -/
inductive IsWritable : Nat → Json → Prop
  | null (depth : Nat) : IsWritable depth .null
  | bool (depth : Nat) (value : Bool) : IsWritable depth (.bool value)
  | string (depth : Nat) (value : String) : IsWritable depth (.string value)
  | number (depth : Nat) {n : JsonNumber} (integer : IsInteger n) : IsWritable depth (.number n)
  | array {depth : Nat} {items : List Json} (each : ∀ v ∈ items, IsWritable depth v) :
      IsWritable (depth + 1) (.array items)
  | object {depth : Nat} {members : List (String × Json)} (increasing : Increasing members)
      (each : ∀ m ∈ members, IsWritable depth m.2) : IsWritable (depth + 1) (.object members)

/-- The text of a value is scanned as a spelling, wherever a value may stand. -/
def Writes (s : Spelling) (v : Json) : Prop :=
  ∀ depth e i rest, AwaitsValue e i → EndsNumber rest →
    Scans ⟨e, i, raw (pretty depth v) ++ rest⟩ s.events ⟨.afterValue, i, rest⟩

theorem writes_scalar {s : Spelling} {v : Json} {event : Event} (events : s.events = [event])
    (text : ∀ depth, pretty depth v = scalarText v) (nonempty : raw (scalarText v) ≠ [])
    (read : ∀ {rest}, EndsNumber rest →
      scalarEvent? (raw (scalarText v) ++ rest) = some (event, rest)) : Writes s v := by
  intro depth e i rest awaits ends
  rw [text, events]
  exact scans_scalar awaits nonempty (read ends)

theorem writes_number {n : JsonNumber} (integer : IsInteger n) :
    Writes (.number n.text) (.number n) := by
  have written : raw (scalarText (.number n)) = n.text := raw_text integer
  have nonempty : n.text ≠ [] := by
    cases integer with
    | whole low high =>
      rw [text_whole]
      split
      · exact toDigits_ne_nil _
      · exact List.cons_ne_nil _ _
    | minusZero => exact List.cons_ne_nil _ _
  rw [← written] at nonempty
  refine writes_scalar rfl (fun _ => rfl) nonempty fun ends => ?_
  rw [written]
  exact scalarEvent?_of_number? (number?_text integer ends)

theorem writes_string (s : String) : Writes (.string s) (.string s) := by
  have written : raw (scalarText (.string s)) = _ := raw_quoted s
  refine writes_scalar rfl (fun _ => rfl) (by rw [written]; exact List.cons_ne_nil _ _) fun {rest} _ => ?_
  rw [written, List.cons_append, List.append_assoc, List.singleton_append, scalarEvent?,
    string?_quoted]
  rfl

theorem raw_indent (depth : Nat) : raw (indent depth) = indent depth := by
  refine raw_of_ascii fun c hc => ?_
  rcases List.mem_cons.mp hc with rfl | hc
  · decide
  · rw [List.eq_of_mem_replicate hc]
    decide

theorem scans_indent (depth : Nat) : Scans ⟨e, i, raw (indent depth) ++ rest⟩ [] ⟨e, i, rest⟩ := by
  rw [raw_indent]
  refine scans_blanks _ fun c hc => ?_
  rcases List.mem_cons.mp hc with rfl | hc
  · rfl
  · rw [List.eq_of_mem_replicate hc]
    rfl

theorem endsNumber_comma : EndsNumber (',' :: rest) := fun _ hc =>
  Or.inl (Option.some.inj hc).symm

theorem endsNumber_indent (depth : Nat) : EndsNumber (raw (indent depth) ++ rest) := by
  rw [raw_indent]
  intro c hc
  obtain rfl := Option.some.inj hc
  exact Or.inr rfl

theorem raw_prettyItems_nil (depth : Nat) : raw (prettyItems depth []) = raw (indent depth) ++ [']'] := by
  rw [prettyItems, raw_append, raw_ascii (c := ']') (by decide)]

theorem raw_prettyItems_cons (depth : Nat) (v : Json) (items : List Json) :
    raw (prettyItems depth (v :: items)) =
      ',' :: (raw (indent (depth + 1)) ++ (raw (pretty (depth + 1) v) ++ raw (prettyItems depth items))) := by
  rw [prettyItems, raw_append, raw_append, raw_cons_ascii (by decide), List.cons_append, List.cons_append,
    List.append_assoc]

theorem endsNumber_prettyItems (depth : Nat) (items : List Json) :
    EndsNumber (raw (prettyItems depth items) ++ rest) := by
  cases items with
  | nil =>
    rw [raw_prettyItems_nil, List.append_assoc]
    exact endsNumber_indent depth
  | cons v items =>
    rw [raw_prettyItems_cons]
    exact endsNumber_comma

/-- The items of an array after the first one. -/
theorem scans_items {depth : Nat} {ss : List Spelling} {items : List Json}
    (each : List.Forall₂ Writes ss items) :
    Scans ⟨.afterValue, .array :: i, raw (prettyItems depth items) ++ rest⟩ (Spelling.itemEvents ss)
      ⟨.afterValue, i, rest⟩ := by
  induction each with
  | nil =>
    rw [raw_prettyItems_nil, List.append_assoc]
    exact (scans_indent depth).trans (scans_endArray (Or.inr rfl))
  | cons writes _ ih =>
    rw [raw_prettyItems_cons, List.cons_append, List.append_assoc, List.append_assoc]
    exact scans_nextItem.trans ((scans_indent _).trans
      ((writes _ _ _ _ (Or.inl rfl) (endsNumber_prettyItems _ _)).trans ih))

theorem writes_array {ss : List Spelling} {items : List Json} (each : List.Forall₂ Writes ss items) :
    Writes (.array ss) (.array items) := by
  intro depth e i rest awaits ends
  cases each with
  | nil =>
    have text : raw (pretty depth (.array [])) = ['[', ']'] := rfl
    rw [text]
    exact (scans_beginArray awaits).trans (scans_endArray (Or.inl rfl))
  | @cons s v ss items writes each =>
    have text : raw (pretty depth (.array (v :: items))) = '[' :: (raw (indent (depth + 1)) ++
        (raw (pretty (depth + 1) v) ++ raw (prettyItems depth items))) := by
      rw [pretty, raw_append, raw_append, raw_cons_ascii (by decide), List.cons_append,
        List.cons_append, List.append_assoc]
    rw [text, List.cons_append, List.append_assoc, List.append_assoc]
    exact (scans_beginArray awaits).trans ((scans_indent _).trans
      ((writes _ _ _ _ (Or.inr ⟨rfl, i, rfl⟩) (endsNumber_prettyItems _ _)).trans (scans_items each)))

/-- The text of one member of an object, with what follows it. -/
def memberText (depth : Nat) (name : String) (value : Json) (rest : List Char) : List Char :=
  raw (indent depth) ++ (raw (quoted name) ++ ':' :: ' ' :: (raw (pretty depth value) ++ rest))

theorem scans_member {depth : Nat} {name : String} {s : Spelling} {v : Json} (writes : Writes s v)
    (awaits : e = .keyOrEnd ∨ e = .key) (ends : EndsNumber rest) :
    Scans ⟨e, .object :: i, memberText depth name v rest⟩ (.key name :: s.events)
      ⟨.afterValue, .object :: i, rest⟩ :=
  (scans_indent depth).trans ((scans_key awaits name).trans (scans_colon.trans
    ((scans_blanks [' '] (List.forall_mem_singleton.mpr rfl)).trans (writes _ _ _ _ (Or.inl rfl) ends))))

theorem raw_prettyMembers_nil (depth : Nat) :
    raw (prettyMembers depth []) = raw (indent depth) ++ ['}'] := by
  rw [prettyMembers, raw_append, raw_ascii (c := '}') (by decide)]

theorem raw_prettyMembers_cons (depth : Nat) (name : String) (v : Json)
    (members : List (String × Json)) :
    raw (prettyMembers depth ((name, v) :: members)) =
      ',' :: memberText (depth + 1) name v (raw (prettyMembers depth members)) := by
  rw [prettyMembers, raw_append, raw_append, raw_append, raw_cons_ascii (c := ',') (by decide),
    raw_cons_ascii (c := ':') (by decide), raw_cons_ascii (c := ' ') (by decide), memberText]
  simp only [List.append_assoc, List.cons_append]

theorem memberText_append (depth : Nat) (name : String) (v : Json) (s t : List Char) :
    memberText depth name v s ++ t = memberText depth name v (s ++ t) := by
  simp only [memberText, List.append_assoc, List.cons_append]

theorem endsNumber_prettyMembers (depth : Nat) (members : List (String × Json)) :
    EndsNumber (raw (prettyMembers depth members) ++ rest) := by
  cases members with
  | nil =>
    rw [raw_prettyMembers_nil, List.append_assoc]
    exact endsNumber_indent depth
  | cons m members =>
    rw [raw_prettyMembers_cons]
    exact endsNumber_comma

/-- The members of an object after the first one. -/
theorem scans_members {depth : Nat} {ss : List (String × Spelling)} {members : List (String × Json)}
    (each : List.Forall₂ (fun s m => s.1 = m.1 ∧ Writes s.2 m.2) ss members) :
    Scans ⟨.afterValue, .object :: i, raw (prettyMembers depth members) ++ rest⟩
      (Spelling.memberEvents ss) ⟨.afterValue, i, rest⟩ := by
  induction each with
  | nil =>
    rw [raw_prettyMembers_nil, List.append_assoc]
    exact (scans_indent depth).trans (scans_endObject (Or.inr rfl))
  | @cons s m ss members member _ ih =>
    obtain ⟨name, s⟩ := s
    obtain ⟨_, v⟩ := m
    obtain ⟨rfl, writes⟩ := member
    rw [raw_prettyMembers_cons, List.cons_append, memberText_append]
    exact scans_nextMember.trans
      ((scans_member writes (Or.inr rfl) (endsNumber_prettyMembers _ _)).trans ih)

theorem writes_object {ss : List (String × Spelling)} {members : List (String × Json)}
    (each : List.Forall₂ (fun s m => s.1 = m.1 ∧ Writes s.2 m.2) ss members) :
    Writes (.object ss) (.object members) := by
  intro depth e i rest awaits ends
  cases each with
  | nil =>
    have text : raw (pretty depth (.object [])) = ['{', '}'] := rfl
    rw [text]
    exact (scans_beginObject awaits).trans (scans_endObject (Or.inl rfl))
  | @cons s m ss members member each =>
    obtain ⟨name, s⟩ := s
    obtain ⟨_, v⟩ := m
    obtain ⟨rfl, writes⟩ := member
    have text : raw (pretty depth (.object ((name, v) :: members))) =
        '{' :: memberText (depth + 1) name v (raw (prettyMembers depth members)) := by
      rw [pretty, raw_append, raw_append, raw_append, raw_cons_ascii (c := '{') (by decide),
        raw_cons_ascii (c := ':') (by decide), raw_cons_ascii (c := ' ') (by decide), memberText]
      simp only [List.append_assoc, List.cons_append]
    rw [text, List.cons_append, memberText_append]
    exact (scans_beginObject awaits).trans
      ((scans_member writes (Or.inl rfl) (endsNumber_prettyMembers _ _)).trans (scans_members each))

/-- A value that is kept has a spelling, and its text says that spelling. -/
theorem exists_writes {depth : Nat} {v : Json} (h : IsWritable depth v) :
    ∃ s : Spelling, s.value? depth = some v ∧ Writes s v := by
  induction h with
  | null depth =>
    exact ⟨.null, rfl, writes_scalar rfl (fun _ => rfl) (List.cons_ne_nil _ _) fun _ => rfl⟩
  | bool depth b =>
    refine ⟨.bool b, rfl, ?_⟩
    cases b <;> exact writes_scalar rfl (fun _ => rfl) (List.cons_ne_nil _ _) fun _ => rfl
  | string depth s => exact ⟨.string s, rfl, writes_string s⟩
  | number depth integer =>
    refine ⟨.number _, ?_, writes_number integer⟩
    rw [Spelling.value?, ofText?_text integer, Option.map_some]
  | array each ih =>
    obtain ⟨ss, hss⟩ := exists_forall₂ ih
    refine ⟨.array ss, ?_, writes_array (hss.imp fun _ _ => And.right)⟩
    rw [Spelling.value?, Spelling.itemValues?_eq_some_iff.mpr (hss.imp fun _ _ => And.left),
      Option.map_some]
  | @object depth members increasing each ih =>
    have found : ∀ m ∈ members, ∃ s : String × Spelling,
        (s.1 = m.1 ∧ s.2.value? depth = some m.2) ∧ s.1 = m.1 ∧ Writes s.2 m.2 := by
      intro m hm
      obtain ⟨s, value, writes⟩ := ih m hm
      exact ⟨(m.1, s), ⟨rfl, value⟩, rfl, writes⟩
    obtain ⟨ss, hss⟩ := exists_forall₂ found
    refine ⟨.object ss, ?_, writes_object (hss.imp fun _ _ => And.right)⟩
    rw [Spelling.value?, Spelling.memberValues?_eq_some_iff.mpr (hss.imp fun _ _ => And.left),
      Option.map_some, Members.ofPairs_of_increasing increasing]

/-- Values of integers are read back from their text. -/
theorem ofText?_pretty {v : Json} (h : IsWritable depthLimit v) : ofText? (raw (pretty 0 v)) = some v := by
  obtain ⟨s, value, writes⟩ := exists_writes h
  have scanned := writes 0 .value [] [] (Or.inl rfl) fun _ hc => by cases hc
  rw [List.append_nil] at scanned
  obtain ⟨fuel, enough, heq⟩ := scanned _ (Nat.lt_succ_self _)
  obtain ⟨fuel, rfl⟩ := Nat.exists_eq_add_one.mpr enough
  have hevents : events (raw (pretty 0 v)) = s.events := by
    rw [events, heq]
    exact List.append_nil _
  rw [Spelling.ofText?_of_events hevents, value]

end Scanning

section Integers

/-- The texts of the integers of 64 bits. -/
def IsIntegerText (text : List Char) : Prop :=
  text = ['-', '0'] ∨ ∃ n : Int, -2 ^ 63 ≤ n ∧ n < 2 ^ 64 ∧ text = (toString n).toList

theorem isInteger_of_ofText? {text : List Char} {n : JsonNumber} (integer : IsIntegerText text)
    (h : JsonNumber.ofText? text = some n) : IsInteger n := by
  rcases integer with rfl | ⟨m, low, high, rfl⟩
  · have zero : JsonNumber.ofText? ['-', '0'] = some (.real true .zero) := rfl
    obtain rfl := Option.some.inj (zero.symm.trans h)
    exact .minusZero
  · have whole := ofText?_text (.whole low high)
    obtain rfl := Option.some.inj (whole.symm.trans h)
    exact .whole low high

/-- Every number is an integer of 64 bits. -/
def HasIntegers (s : Spelling) : Prop := ∀ text, Spelling.IsPart (.number text) s → IsIntegerText text

theorem hasIntegers_string (text : String) : HasIntegers (.string text) := by
  rintro number (_ | _)

theorem hasIntegers_array {items : List Spelling} :
    HasIntegers (.array items) ↔ ∀ s ∈ items, HasIntegers s := by
  constructor
  · exact fun h s hs text part => h text (.item hs part)
  · rintro h text (_ | ⟨mem, part⟩)
    exact h _ mem text part

theorem hasIntegers_object {members : List (String × Spelling)} :
    HasIntegers (.object members) ↔ ∀ m ∈ members, HasIntegers m.2 := by
  constructor
  · exact fun h m hm text part => h text (.member hm part)
  · rintro h text (_ | _ | ⟨mem, part⟩)
    exact h _ mem text part

/-- What integers are read to is written so that it is read back. -/
theorem isWritable_of_value? {depth : Nat} {s : Spelling} {v : Json} (integers : HasIntegers s)
    (h : s.value? depth = some v) : IsWritable depth v := by
  induction depth using Nat.strongRecOn generalizing s v with
  | ind depth ih =>
    cases s with
    | null =>
      obtain rfl := Option.some.inj h
      exact .null _
    | bool b =>
      obtain rfl := Option.some.inj h
      exact .bool _ b
    | string text =>
      obtain rfl := Option.some.inj h
      exact .string _ text
    | number text =>
      obtain ⟨n, hn, rfl⟩ := Option.map_eq_some_iff.mp h
      exact .number _ (isInteger_of_ofText? (integers text (.self _)) hn)
    | array items =>
      cases depth with
      | zero => cases h
      | succ depth =>
        obtain ⟨vs, hvs, rfl⟩ := Option.map_eq_some_iff.mp h
        refine .array fun v hv => ?_
        obtain ⟨s, hs, value⟩ := exists_of_mem_forall₂ (Spelling.itemValues?_eq_some_iff.mp hvs) hv
        exact ih depth (Nat.lt_succ_self _) (hasIntegers_array.mp integers s hs) value
    | object members =>
      cases depth with
      | zero => cases h
      | succ depth =>
        obtain ⟨pairs, hpairs, rfl⟩ := Option.map_eq_some_iff.mp h
        refine .object (Members.increasing_ofPairs pairs) fun m hm => ?_
        obtain ⟨s, hs, -, value⟩ := exists_of_mem_forall₂
          (Spelling.memberValues?_eq_some_iff.mp hpairs) (Members.mem_of_mem_ofPairs hm)
        exact ih depth (Nat.lt_succ_self _) (hasIntegers_object.mp integers s hs) value

end Integers

end SparqlConformance.Json
