import Mathlib.Data.List.Forall2
import SparqlConformance.Proofs.CsvRoundTrip
/-!
# Single columns

Solutions over one variable in CSV. The line of a solution without a value has no character, and such lines
are skipped, so just the solutions with a value are read back, in their order. With two variables there is a
comma on every line, and nothing is lost.
-/
namespace SparqlConformance

namespace Csv

/-- What is read of the field that a text starts with: a byte order mark is only kept in quotes. -/
def firstField (s : String) : String :=
  if needsQuotes s.toList then s else String.ofList (withoutMark s.toList)

theorem writeRecords_single (s : String) (records : List (List String)) :
    writeRecords ([s] :: records) = writeField s.toList ++ '\r' :: '\n' :: writeRecords records := by
  simp [writeRecords, writeRecord, Text.join]

theorem withoutMark_writeRecords (s : String) (records : List (List String)) :
    withoutMark (writeRecords ([s] :: records)) = writeRecords ([firstField s] :: records) := by
  have unmarked {c : Char} (h : c ≠ '\uFEFF') (r : List Char) : withoutMark (c :: r) = c :: r := by
    unfold withoutMark
    split
    · rename_i marked
      exact absurd (List.cons.inj marked).1 h
    · rfl
  rw [writeRecords_single, writeRecords_single, firstField]
  cases quotes : needsQuotes s.toList with
  | true =>
    rw [if_pos rfl, writeField, if_pos quotes]
    exact unmarked (by decide) _
  | false =>
    rw [if_neg Bool.false_ne_true, String.toList_ofList]
    have bare {t : List Char} (h : needsQuotes t = false) : writeField t = t :=
      if_neg (by rw [h]; exact Bool.false_ne_true)
    cases text : s.toList with
    | nil => rfl
    | cons c t =>
      rw [text] at quotes
      by_cases mark : c = '\uFEFF'
      · subst mark
        have rest : needsQuotes t = false := by
          rw [needsQuotes, List.any_cons, Bool.or_eq_false_iff] at quotes
          exact quotes.2
        rw [bare quotes]
        exact (congrArg (· ++ _) (bare rest)).symm
      · rw [unmarked mark, bare quotes]
        exact unmarked mark _

end Csv

namespace Solutions

/-- The value of a variable as it stands on the line of a solution. -/
def csvCell (v : String) (row : Solution) : String := ((row.get? v).map csvValue).getD ""

/-- The variable that the header of a single column is read as. -/
def headerName (v : String) : String := variableName (Csv.firstField v).toList

section Column

variable {b : Solutions} {v : String}

theorem fields_csvText (one : b.vars = [v]) : (Csv.records b.csvText.toList).map Csv.Record.fields =
    ((Csv.firstField v :: b.rows.map (csvCell v)).filter (· ≠ "")).map ([·]) := by
  have lines : b.rows.map (csvFields b.vars) = (b.rows.map (csvCell v)).map ([·]) := by
    rw [one, List.map_map]
    rfl
  have text : Csv.withoutMark b.csvText.toList =
      Csv.writeRecords ((Csv.firstField v :: b.rows.map (csvCell v)).map ([·])) := by
    rw [csvText, String.toList_ofList, one, ← one, lines, one, Csv.withoutMark_writeRecords]
    rfl
  rw [Csv.records_eq_filter text, List.filter_map]
  refine congrArg (List.map _) (List.filter_congr fun s _ => ?_)
  exact Bool.eq_iff_iff.mpr (Csv.isFilled_singleton.trans decide_eq_true_iff.symm)

theorem size_of_pushRecords {vars : List String} {b c : Solutions} {records : List Csv.Record}
    (h : pushRecords vars b records = .ok c) : c.size = b.size + records.length := by
  induction records generalizing b with
  | nil =>
    obtain rfl := Except.ok.inj h
    rfl
  | cons r records ih =>
    rw [pushRecords] at h
    split at h
    · cases h
    · have one_more : (b.push (Solution.ofPairs (csvBindings vars r.fields))).size = b.size + 1 :=
        List.length_append
      rw [ih h, one_more, List.length_cons]
      omega

/-- As many rows are read as there are records after the first. -/
theorem size_of_readCsv {text : String} {c : Solutions} (h : readCsv text = .ok c) :
    c.size = (Csv.records text.toList).length - 1 := by
  have rows := size_of_pushRecords h
  rw [List.length_tail] at rows
  exact rows.trans (Nat.zero_add _)

/-- The values of the solutions that have one. -/
def csvValues (b : Solutions) (v : String) : List String := (b.rows.map (csvCell v)).filter (· ≠ "")

/-- The header of a single column whose name is read as a name, and the lines that are left. -/
theorem exists_records (one : b.vars = [v]) (named : headerName v ≠ "") : ∃ r records,
    Csv.records b.csvText.toList = r :: records ∧ r.fields = [Csv.firstField v] ∧
      records.map Csv.Record.fields = (b.csvValues v).map ([·]) := by
  have filled : Csv.firstField v ≠ "" := by
    intro empty
    rw [headerName, empty] at named
    exact named rfl
  have fields := fields_csvText one
  rw [List.filter_cons_of_pos (by simpa using filled), List.map_cons] at fields
  exact List.map_eq_cons_iff.mp fields

/-- The row that is read of a value. -/
def IsRowOf (v : String) (row read : Solution) : Prop :=
  ∃ t, csvTerm? (csvCell v row) = some t ∧ read = .ofPairs [(headerName v, t)]

theorem csvTerm?_eq_none_iff {s : String} : csvTerm? s = none ↔ s = "" := by
  unfold csvTerm?
  dsimp only
  constructor
  · intro h
    split at h
    · rename_i empty
      exact String.toList_eq_nil_iff.mp (List.isEmpty_iff.mp empty)
    · split at h
      · cases h
      · split at h <;> cases h
  · rintro rfl
    rfl

/-- A column whose name is read as a name gives a row for each solution with a value. -/
theorem exists_readCsv (one : b.vars = [v]) (named : headerName v ≠ "") :
    ∃ c, readCsv b.csvText = .ok c ∧ c.vars = [headerName v] ∧
      List.Forall₂ (IsRowOf v) (b.rows.filter fun row => csvCell v row ≠ "") c.rows := by
  obtain ⟨r, records, split, first, others⟩ := exists_records one named
  have vars : (r.fields.map fun f => variableName f.toList).filter (fun v => !v.isEmpty) =
      [headerName v] := by
    have kept : (!(headerName v).isEmpty) = true := by simpa using named
    rw [first]
    exact List.filter_cons_of_pos kept
  have declared : ((ofVariables [headerName v]).withFidelity .csv).vars = [headerName v] :=
    declareAll_of_nodup (by simp)
  have fits : ∀ r ∈ records, r.fields.length ≤ [headerName v].length := by
    intro r hr
    have written : r.fields ∈ (b.csvValues v).map ([·]) := others ▸ List.mem_map_of_mem hr
    obtain ⟨s, _, heq⟩ := List.mem_map.mp written
    rw [← heq]
    exact Nat.le_refl 1
  obtain ⟨c, pushed, hvars, _, _, hrows⟩ := pushRecords_eq_ok declared fits
  refine ⟨c, ?_, hvars, ?_⟩
  · rw [readCsv, split]
    dsimp only
    rw [vars]
    exact pushed
  · have values : b.csvValues v = (b.rows.filter fun row => csvCell v row ≠ "").map (csvCell v) :=
      List.filter_map
    have read : c.rows = (b.rows.filter fun row => csvCell v row ≠ "").map fun row =>
        .ofPairs (csvBindings [headerName v] [csvCell v row]) := by
      rw [hrows, others, values, List.map_map, List.map_map]
      rfl
    rw [read, List.forall₂_map_right_iff, List.forall₂_same]
    intro row hrow
    have filled : csvCell v row ≠ "" := of_decide_eq_true (List.mem_filter.mp hrow).2
    obtain ⟨t, ht⟩ := Option.ne_none_iff_exists'.mp fun h => filled (csvTerm?_eq_none_iff.mp h)
    refine ⟨t, ht, congrArg Solution.ofPairs ?_⟩
    simp [csvBindings, ht]

/-- Without solutions there is nothing to lose, whatever the variable is called. -/
theorem exists_readCsv_of_no_rows (one : b.vars = [v]) (none : b.rows = []) :
    ∃ c, readCsv b.csvText = .ok c ∧ c.rows = [] := by
  have fields := fields_csvText one
  rw [none] at fields
  have few : (Csv.records b.csvText.toList).length ≤ 1 := by
    rw [← List.length_map Csv.Record.fields, fields, List.length_map]
    exact List.length_filter_le _ _
  have last : (Csv.records b.csvText.toList).tail = [] := by
    rw [← List.length_eq_zero_iff, List.length_tail]
    omega
  unfold readCsv
  dsimp only
  rw [last]
  exact ⟨_, rfl, rfl⟩

/-- Where the name is read as none, the first value is one too many. -/
theorem headerName_ne_of_readCsv {c : Solutions} (one : b.vars = [v])
    (header : Csv.firstField v ≠ "") (valued : b.csvValues v ≠ []) (h : readCsv b.csvText = .ok c) :
    headerName v ≠ "" := by
  intro unnamed
  have fields := fields_csvText one
  rw [List.filter_cons_of_pos (by simpa using header), List.map_cons] at fields
  obtain ⟨r, records, split, first, others⟩ := List.map_eq_cons_iff.mp fields
  have vars : (r.fields.map fun f => variableName f.toList).filter (fun v => !v.isEmpty) = [] := by
    have dropped : ¬(!(headerName v).isEmpty) = true := by simpa using unnamed
    rw [first]
    exact List.filter_cons_of_neg dropped
  obtain ⟨s, values, hvalues⟩ := List.exists_cons_of_ne_nil valued
  rw [csvValues] at hvalues
  rw [hvalues, List.map_cons] at others
  obtain ⟨r', records', rfl, wide, _⟩ := List.map_eq_cons_iff.mp others
  have one_field : ([] : List String).length < r'.fields.length := by
    rw [wide]
    exact Nat.zero_lt_one
  rw [readCsv, split] at h
  dsimp only at h
  rw [vars, List.tail_cons, pushRecords, if_pos one_field] at h
  cases h

/-- As many rows are read of a single column as there are solutions exactly when each solution has a value
that is not empty. The rows are in the order of the solutions, and solutions without a value are lost. -/
theorem readCsv_single_column_iff (one : b.vars = [v]) :
    ((∃ c, readCsv b.csvText = .ok c ∧ c.size = b.size) ↔
      b.rows = [] ∨ headerName v ≠ "" ∧ ∀ row ∈ b.rows, csvCell v row ≠ "") ∧
    ((∃ c, readCsv b.csvText = .ok c ∧ List.Forall₂ (IsRowOf v) b.rows c.rows) ↔
      b.rows = [] ∨ headerName v ≠ "" ∧ ∀ row ∈ b.rows, csvCell v row ≠ "") ∧
    (headerName v ≠ "" → ∃ c, readCsv b.csvText = .ok c ∧ c.vars = [headerName v] ∧
      List.Forall₂ (IsRowOf v) (b.rows.filter fun row => csvCell v row ≠ "") c.rows) := by
  have necessary : (∃ c, readCsv b.csvText = .ok c ∧ c.size = b.size) →
      b.rows = [] ∨ headerName v ≠ "" ∧ ∀ row ∈ b.rows, csvCell v row ≠ "" := by
    rintro ⟨c, read, size⟩
    refine or_iff_not_imp_left.mpr fun some_row => ?_
    have rows : 0 < b.rows.length := List.length_pos_iff.mpr some_row
    have count := size_of_readCsv read
    rw [← List.length_map Csv.Record.fields, fields_csvText one, List.length_map] at count
    have values : (b.csvValues v).length ≤ b.rows.length :=
      (List.length_filter_le _ _).trans_eq (List.length_map _)
    have total : b.size = b.rows.length := rfl
    have header : Csv.firstField v ≠ "" := by
      intro empty
      rw [empty, List.filter_cons_of_neg (by decide), ← csvValues] at count
      omega
    rw [List.filter_cons_of_pos (by simpa using header), List.length_cons, ← csvValues] at count
    have all : (b.csvValues v).length = (b.rows.map (csvCell v)).length := by
      rw [List.length_map]
      omega
    have filled := List.length_filter_eq_length_iff.mp all
    have valued : b.csvValues v ≠ [] := List.length_pos_iff.mp (by omega)
    exact ⟨headerName_ne_of_readCsv one header valued read, fun row hrow =>
      of_decide_eq_true (filled _ (List.mem_map_of_mem hrow))⟩
  have sufficient : (b.rows = [] ∨ headerName v ≠ "" ∧ ∀ row ∈ b.rows, csvCell v row ≠ "") →
      ∃ c, readCsv b.csvText = .ok c ∧ List.Forall₂ (IsRowOf v) b.rows c.rows := by
    rintro (none | ⟨named, filled⟩)
    · obtain ⟨c, read, rows⟩ := exists_readCsv_of_no_rows one none
      exact ⟨c, read, by rw [none, rows]; exact .nil⟩
    · obtain ⟨c, read, _, rows⟩ := exists_readCsv one named
      rw [List.filter_eq_self.mpr fun row hrow => by simpa using filled row hrow] at rows
      exact ⟨c, read, rows⟩
  have sizes : (∃ c, readCsv b.csvText = .ok c ∧ List.Forall₂ (IsRowOf v) b.rows c.rows) →
      ∃ c, readCsv b.csvText = .ok c ∧ c.size = b.size := fun ⟨c, read, rows⟩ =>
    ⟨c, read, rows.length_eq.symm⟩
  exact ⟨⟨necessary, fun h => sizes (sufficient h)⟩, ⟨fun h => necessary (sizes h), sufficient⟩,
    exists_readCsv one⟩

end Column

/-- Values of one variable that need quotes, or look like other terms than they are. -/
def quotedColumn : Solutions :=
  (ofVariables ["x"]).pushAll
    [.ofPairs [("x", .plain "a \"quoted\", long\r\nvalue")], .ofPairs [("x", .plain " ")],
      .ofPairs [("x", .blank "b")], .ofPairs [("x", .literal (.tagged "t:one" "en"))]]

theorem readCsv_quotedColumn : quotedColumn.vars = ["x"] ∧
    ∃ c, readCsv quotedColumn.csvText = .ok c ∧ c.size = quotedColumn.size := by
  have one : quotedColumn.vars = ["x"] := by decide
  exact ⟨one, (readCsv_single_column_iff one).1.mpr (.inr ⟨by decide, by decide⟩)⟩

/-- Two solutions of one variable, which the first one leaves unbound. -/
def unboundFirst : Solutions := (ofVariables ["x"]).pushAll [.empty, .ofPairs [("x", .plain "1")]]

/-- The solution without a value is lost on its way through CSV. -/
theorem readCsv_unboundFirst : unboundFirst.vars = ["x"] ∧ unboundFirst.csvText = "x\r\n\r\n1\r\n" ∧
    ∃ c, readCsv unboundFirst.csvText = .ok c ∧ c.rows = [.ofPairs [("x", .plain "1")]] ∧
      c.size ≠ unboundFirst.size := by
  exact ⟨by decide, by decide, _, rfl, rfl, by decide⟩

end Solutions

end SparqlConformance
