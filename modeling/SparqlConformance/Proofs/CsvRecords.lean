import SparqlConformance.Format.Csv
import SparqlConformance.Text.Lines
/-!
# Written records

Records are read back from the text that they are written as, whatever characters their fields hold. Each
of them needs two fields, or one that is not empty: a record with one empty field is written as a line with
no character.
-/
namespace SparqlConformance.Csv

/-- A record as a line. -/
def writeRecord (fields : List String) : List Char :=
  Text.join [','] (fields.map fun s => writeField s.toList) ++ ['\r', '\n']

def writeRecords (records : List (List String)) : List Char := records.flatMap writeRecord

/-- Whether a record is written as a line with a character at least. -/
def isFilled (fields : List String) : Bool := fields != [] && fields != [""]

theorem isFilled_singleton {s : String} : isFilled [s] = true ↔ s ≠ "" := by simp [isFilled]

namespace Reader

/-- A reader that stands before a field, with the fields of its record and the records so far. -/
structure IsBefore (r : Reader) (place : Place) (fields : List String)
    (records : List (List String)) : Prop where
  place : r.place = place
  field : r.field = []
  fields : r.fields = fields
  records : r.records.map Record.fields = records

/-- A reader that has met the whole text of a field, but nothing that ends it. -/
structure IsAfter (r : Reader) (place : Place) (s : List Char) (fields : List String)
    (records : List (List String)) : Prop where
  place : r.place = place ∨ r.place = .inField ∨ r.place = .afterQuote
  field : r.field = s.reverse
  fields : r.fields = fields
  records : r.records.map Record.fields = records

theorem step_comma {r : Reader} (h : r.place ≠ .inQuotes) : r.step ',' = r.unquoted ',' := by
  unfold step
  cases place : r.place with
  | inQuotes => exact absurd place h
  | recordStart => rfl
  | afterReturn => rfl
  | fieldStart => rfl
  | inField => rfl
  | afterQuote => rfl

theorem step_return {r : Reader} (h : r.place = .fieldStart ∨ r.place = .inField ∨ r.place = .afterQuote) :
    r.step '\r' = r.unquoted '\r' := by
  unfold step
  rcases h with h | h | h <;> rw [h] <;> rfl

theorem foldl_doubled {r : Reader} (h : r.place = .inQuotes) (s : List Char) :
    ∃ line, (doubled s).foldl step r = { r with field := s.reverse ++ r.field, line } := by
  induction s generalizing r with
  | nil => exact ⟨r.line, rfl⟩
  | cons c s ih =>
    obtain ⟨place, field, fields, line, start, records⟩ := r
    obtain rfl : place = .inQuotes := h
    by_cases quote : c = '"'
    · subst quote
      obtain ⟨line, ran⟩ := @ih ⟨.inQuotes, '"' :: field, fields, line, start, records⟩ rfl
      refine ⟨line, ?_⟩
      rw [List.reverse_cons, List.append_assoc]
      exact ran
    · obtain ⟨after, ran⟩ := @ih ⟨.inQuotes, c :: field, fields,
        if c = '\n' then line + 1 else line, start, records⟩ rfl
      refine ⟨after, ?_⟩
      rw [doubled, if_neg quote, List.foldl_cons, List.reverse_cons, List.append_assoc]
      simp only [step, if_neg quote]
      exact ran

theorem unquoted_plain (r : Reader) {c : Char} {s : List Char} (plain : needsQuotes (c :: s) = false) :
    r.unquoted c = { r with place := .inField, field := c :: r.field } ∧ needsQuotes s = false := by
  simp only [needsQuotes, List.any_cons, Bool.or_eq_false_iff, beq_eq_false_iff_ne] at plain
  obtain ⟨⟨⟨⟨_, comma⟩, ret⟩, feed⟩, rest⟩ := plain
  exact ⟨by rw [unquoted, if_neg comma, if_neg ret, if_neg feed], rest⟩

theorem foldl_plain {r : Reader} (h : r.place = .inField) {s : List Char}
    (plain : needsQuotes s = false) :
    s.foldl step r = { r with field := s.reverse ++ r.field } := by
  induction s generalizing r with
  | nil => rfl
  | cons c s ih =>
    obtain ⟨same, rest⟩ := unquoted_plain r plain
    have stepped : r.step c = { r with field := c :: r.field } := by
      rw [step, h]
      dsimp only
      rw [same, ← h]
    have inner : (r.step c).place = .inField := by
      rw [stepped]
      exact h
    rw [List.foldl_cons, ih inner rest, stepped, List.reverse_cons, List.append_assoc]
    rfl

variable {fields : List String} {records : List (List String)}

/-- A written field with a character is taken in whole, in quotes or without, and a reader that has met it
stands nowhere else than behind it. -/
theorem IsBefore.isAfter_of_ne_nil {r : Reader} {place : Place}
    (start : place = .recordStart ∨ place = .fieldStart) (before : r.IsBefore place fields records)
    {s : List Char} (filled : s ≠ []) (other : Place) :
    ((writeField s).foldl step r).IsAfter other s fields records := by
  obtain ⟨hplace, hfield, hfields, hrecords⟩ := before
  have opens {c : Char} (hc : c ≠ '\r' ∧ c ≠ '\n') : r.step c = r.opening c := by
    rcases start with rfl | rfl
    · rw [step, hplace]
      dsimp only
      rw [atRecordStart, if_neg (by simp [hc])]
    · rw [step, hplace]
  cases quotes : needsQuotes s with
  | true =>
    have open_quote : r.step '"' = { r with place := .inQuotes } := opens (by decide)
    rw [writeField, if_pos quotes, List.foldl_cons, open_quote, List.foldl_append]
    obtain ⟨line, ran⟩ := @foldl_doubled { r with place := .inQuotes } rfl s
    rw [ran, hfield, List.append_nil]
    exact ⟨Or.inr (Or.inr rfl), rfl, hfields, hrecords⟩
  | false =>
    rw [writeField, if_neg (by simp [quotes])]
    cases s with
    | nil => exact absurd rfl filled
    | cons c s =>
      obtain ⟨same, rest⟩ := unquoted_plain r quotes
      have plain : c ≠ '"' ∧ c ≠ '\r' ∧ c ≠ '\n' := by
        refine ⟨?_, ?_, ?_⟩ <;> rintro rfl <;> simp [needsQuotes] at quotes
      have stepped : r.step c = { r with place := .inField, field := [c] } := by
        rw [opens plain.2, opening, if_neg plain.1, same, hfield]
      have inner : (r.step c).place = .inField := by rw [stepped]
      rw [List.foldl_cons, foldl_plain inner rest, stepped]
      exact ⟨Or.inr (Or.inl rfl), by simp, hfields, hrecords⟩

/-- A written field is taken in whole; at an empty one the reader stays where it is. -/
theorem IsBefore.isAfter {r : Reader} {place : Place}
    (start : place = .recordStart ∨ place = .fieldStart) (before : r.IsBefore place fields records)
    (s : List Char) : ((writeField s).foldl step r).IsAfter place s fields records := by
  cases s with
  | nil => exact ⟨Or.inl before.place, before.field, before.fields, before.records⟩
  | cons c s => exact before.isAfter_of_ne_nil start (List.cons_ne_nil c s) place

theorem IsAfter.comma {r : Reader} {place : Place} {s : List Char}
    (start : place = .recordStart ∨ place = .fieldStart) (after : r.IsAfter place s fields records) :
    (r.step ',').IsBefore .fieldStart (String.ofList s :: fields) records := by
  obtain ⟨hplace, hfield, hfields, hrecords⟩ := after
  have outside : r.place ≠ .inQuotes := by
    rcases hplace with h | h | h <;> rw [h]
    · rcases start with rfl | rfl <;> decide
    · decide
    · decide
  rw [step_comma outside, unquoted, if_pos rfl]
  refine ⟨rfl, rfl, ?_, hrecords⟩
  simp only [endField, hfield, hfields, List.reverse_reverse]

theorem IsAfter.line_end {r : Reader} {s : List Char} (after : r.IsAfter .fieldStart s fields records) :
    (['\r', '\n'].foldl step r).IsBefore .recordStart []
      ((fields.reverse ++ [String.ofList s]) :: records) := by
  obtain ⟨hplace, hfield, hfields, hrecords⟩ := after
  have ended : r.step '\r' = r.endRecord .afterReturn r.line := step_return hplace
  rw [List.foldl_cons, ended]
  refine ⟨rfl, rfl, rfl, ?_⟩
  simp only [List.foldl_cons, List.foldl_nil, step, endRecord, atRecordStart]
  simp [endField, hfield, hfields, hrecords]

/-- From the second field on, the rest of a record is read to the end of its line. -/
theorem IsBefore.rest {r : Reader} (before : r.IsBefore .fieldStart fields records) (s : String)
    (rest : List String) : ((writeRecord (s :: rest)).foldl step r).IsBefore .recordStart []
      ((fields.reverse ++ s :: rest) :: records) := by
  induction rest generalizing r fields s with
  | nil =>
    have after := before.isAfter (Or.inr rfl) s.toList
    have ended := after.line_end
    rw [String.ofList_toList, ← List.foldl_append] at ended
    exact ended
  | cons t rest ih =>
    have next := (before.isAfter (Or.inr rfl) s.toList).comma (Or.inr rfl)
    have ended := ih next t
    rw [String.ofList_toList, List.reverse_cons, List.append_assoc] at ended
    have parts : writeRecord (s :: t :: rest) = writeField s.toList ++ ',' :: writeRecord (t :: rest) := by
      simp [writeRecord, Text.join]
    rw [parts, List.foldl_append]
    exact ended

theorem IsBefore.record {r : Reader} (before : r.IsBefore .recordStart [] records) (s t : String)
    (rest : List String) : ((writeRecord (s :: t :: rest)).foldl step r).IsBefore .recordStart []
      ((s :: t :: rest) :: records) := by
  have next := (before.isAfter (Or.inl rfl) s.toList).comma (Or.inl rfl)
  have ended := next.rest t rest
  rw [String.ofList_toList] at ended
  have parts : writeRecord (s :: t :: rest) = writeField s.toList ++ ',' :: writeRecord (t :: rest) := by
    simp [writeRecord, Text.join]
  rw [parts, List.foldl_append]
  exact ended

/-- A single field ends its record where its line ends. -/
theorem IsBefore.single {r : Reader} (before : r.IsBefore .recordStart [] records) {s : String}
    (filled : s ≠ "") : ((writeRecord [s]).foldl step r).IsBefore .recordStart [] ([s] :: records) := by
  have chars : s.toList ≠ [] := fun h => filled (String.toList_eq_nil_iff.mp h)
  have ended := (before.isAfter_of_ne_nil (Or.inl rfl) chars .fieldStart).line_end
  rw [String.ofList_toList, ← List.foldl_append] at ended
  exact ended

/-- A line with no character leaves the reader where it is. -/
theorem IsBefore.line_end {r : Reader} (before : r.IsBefore .recordStart [] records) :
    (['\r', '\n'].foldl step r).IsBefore .recordStart [] records := by
  obtain ⟨place, field, fields, line, start, found⟩ := r
  obtain ⟨rfl, hfield, hfields, hrecords⟩ := before
  exact ⟨rfl, hfield, hfields, hrecords⟩

theorem IsBefore.all {r : Reader} (before : r.IsBefore .recordStart [] records)
    (written : List (List String)) : ((writeRecords written).foldl step r).IsBefore .recordStart []
      ((written.filter isFilled).reverse ++ records) := by
  induction written generalizing r records with
  | nil => exact before
  | cons fields written ih =>
    rw [writeRecords, List.flatMap_cons, List.foldl_append]
    match fields with
    | [] => exact ih before.line_end
    | [s] =>
      by_cases empty : s = ""
      · subst empty
        exact ih before.line_end
      · have kept : isFilled [s] = true := isFilled_singleton.mpr empty
        rw [List.filter_cons_of_pos kept, List.reverse_cons, List.append_assoc]
        exact ih (before.single empty)
    | s :: t :: rest =>
      have kept : isFilled (s :: t :: rest) = true := by simp [isFilled]
      rw [List.filter_cons_of_pos kept, List.reverse_cons, List.append_assoc]
      exact ih (before.record s t rest)

end Reader

/-- Written records are read back where they are filled. -/
theorem records_eq_filter {s : List Char} {written : List (List String)}
    (text : withoutMark s = writeRecords written) :
    (records s).map Record.fields = written.filter isFilled := by
  have start : Reader.initial.IsBefore .recordStart [] [] := ⟨rfl, rfl, rfl, rfl⟩
  have done := start.all written
  rw [records, text, Reader.finish, done.place]
  dsimp only
  rw [List.map_reverse, done.records, List.append_nil, List.reverse_reverse]

/-- Records of two fields at least are all read back, unless the text starts with a byte order mark. -/
theorem records_writeRecords {written : List (List String)}
    (wide : ∀ fields ∈ written, 2 ≤ fields.length)
    (unmarked : (writeRecords written).head? ≠ some '\uFEFF') :
    (records (writeRecords written)).map Record.fields = written := by
  have whole : withoutMark (writeRecords written) = writeRecords written := by
    unfold withoutMark
    split
    · rename_i h
      rw [h] at unmarked
      exact absurd rfl unmarked
    · rfl
  rw [records_eq_filter whole, List.filter_eq_self]
  intro fields h
  have two := wide fields h
  match fields with
  | [] => cases two
  | [_] => exact absurd two (Nat.not_succ_le_self 1)
  | _ :: _ :: _ => simp [isFilled]

end SparqlConformance.Csv
