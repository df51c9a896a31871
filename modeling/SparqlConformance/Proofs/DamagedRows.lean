import SparqlConformance.Proofs.PrintedRows
/-!
# Damaged rows

What becomes of a line that starts like a row. Between its brackets it has to be well-formed, or the whole
output is an error; but without its brackets it is taken for no row at all, and its solution is missing.
-/
namespace SparqlConformance.Simple

open Text

theorem stripEnd_eq_some_iff {e s r : List Char} : stripEnd e s = some r ↔ s = r ++ e := by
  unfold stripEnd
  rw [Option.map_eq_some_iff]
  constructor
  · rintro ⟨t, found, rfl⟩
    have text := congrArg List.reverse (eq_append_of_stripStart found)
    rwa [List.reverse_reverse, List.reverse_append, List.reverse_reverse] at text
  · rintro rfl
    exact ⟨r.reverse, by rw [List.reverse_append, stripStart_append], List.reverse_reverse r⟩

/-- Whether a line says that it is a row. -/
def IsRowLine (line : List Char) : Prop := "row:".toList <+: trim line

/-- Whether a row has both of its brackets. -/
def IsBracketed (line : List Char) : Prop := ∃ gap body : List Char, (∀ c ∈ gap, isSpace c = true) ∧
  trim line = "row:".toList ++ (gap ++ '[' :: (body ++ [']']))

/-- Whether a row can be read from a line, and which one. -/
def SaysRow (line : List Char) (row : Solution) : Prop :=
  ∃ body, rowOfLine? line = some body ∧ readRow body = .ok row

section Lines

variable {line : List Char}

theorem rowOfLine?_eq_some_iff {body : List Char} : rowOfLine? line = some body ↔
    ∃ gap : List Char, (∀ c ∈ gap, isSpace c = true) ∧
      trim line = "row:".toList ++ (gap ++ '[' :: (body ++ [']'])) := by
  unfold rowOfLine?
  constructor
  · intro h
    split at h
    · cases h
    · rename_i r start
      split at h
      · rename_i inner opened
        refine ⟨r.takeWhile isSpace, fun c hc => List.mem_takeWhile_imp hc, ?_⟩
        rw [eq_append_of_stripStart start, ← stripEnd_eq_some_iff.mp h, ← opened]
        exact congrArg _ List.takeWhile_append_dropWhile.symm
      · cases h
  · rintro ⟨gap, spaces, text⟩
    have opened : Text.trimStart (gap ++ '[' :: (body ++ [']'])) = '[' :: (body ++ [']']) :=
      trimStart_append spaces _
    rw [text, stripStart_append]
    dsimp only
    rw [opened]
    exact stripEnd_eq_some_iff.mpr rfl

theorem isBracketed_iff : IsBracketed line ↔ (rowOfLine? line).isSome = true := by
  rw [Option.isSome_iff_exists, IsBracketed, exists_comm]
  exact exists_congr fun body => rowOfLine?_eq_some_iff.symm

instance (line : List Char) : Decidable (IsBracketed line) := decidable_of_iff _ isBracketed_iff.symm

instance (line : List Char) : Decidable (IsRowLine line) :=
  inferInstanceAs (Decidable ("row:".toList <+: trim line))

theorem IsBracketed.isRowLine (h : IsBracketed line) : IsRowLine line := by
  obtain ⟨gap, body, _, text⟩ := h
  exact ⟨_, text.symm⟩

end Lines

/-- The lines of a text that say that they are rows. -/
def rowLines (text : String) : List (List Char) :=
  (lines text.toList).filter fun line => IsRowLine line

theorem filter_isBracketed (text : String) :
    (rowLines text).filter (fun line => IsBracketed line) =
      (lines text.toList).filter fun line => IsBracketed line := by
  rw [rowLines, List.filter_filter]
  refine List.filter_congr fun line _ => ?_
  rw [Bool.and_eq_left_iff_imp, decide_eq_true_eq, decide_eq_true_eq]
  exact IsBracketed.isRowLine

/-- The rows of lines are read from those with brackets. -/
theorem forall₂_filterMap_iff {lines : List (List Char)} {rows : List Solution} :
    List.Forall₂ (fun body row => readRow body = .ok row) (lines.filterMap rowOfLine?) rows ↔
      List.Forall₂ SaysRow (lines.filter fun line => IsBracketed line) rows := by
  induction lines generalizing rows with
  | nil => rw [List.filterMap_nil, List.filter_nil, List.forall₂_nil_left_iff, List.forall₂_nil_left_iff]
  | cons line lines ih =>
    cases found : rowOfLine? line with
    | none =>
      have open_line : ¬IsBracketed line := by rw [isBracketed_iff, found]; exact Bool.false_ne_true
      rw [List.filterMap_cons_none found, List.filter_cons_of_neg (by simpa using open_line)]
      exact ih
    | some body =>
      have whole : IsBracketed line := by rw [isBracketed_iff, found]; rfl
      have same_row (row : Solution) : readRow body = .ok row ↔ SaysRow line row := by
        unfold SaysRow
        rw [found]
        exact ⟨fun h => ⟨body, rfl, h⟩, fun ⟨_, same, h⟩ => Option.some.inj same ▸ h⟩
      rw [List.filterMap_cons_some found, List.filter_cons_of_pos (by simpa using whole)]
      cases rows with
      | nil => exact iff_of_false nofun nofun
      | cons row rows => rw [List.forall₂_cons, List.forall₂_cons, same_row, ih]

/-- What is wrong is told of the first line that is wrong between its brackets. -/
theorem exists_fault_of_readRows {number : Nat} {lines : List (List Char)} {e : AnswerError}
    (h : readRows number lines = .error e) : ∃ i line body fault, lines[i]? = some line ∧
      rowOfLine? line = some body ∧ readRow body = .error fault ∧ e = .line (number + i) fault := by
  induction lines generalizing number with
  | nil => cases h
  | cons line lines ih =>
    have later : readRows (number + 1) lines = .error e → ∃ i line' body fault,
        (line :: lines)[i]? = some line' ∧ rowOfLine? line' = some body ∧
          readRow body = .error fault ∧ e = .line (number + i) fault := by
      intro h
      obtain ⟨i, line', body, fault, place, found, wrong, told⟩ := ih h
      have next : number + 1 + i = number + (i + 1) := by omega
      exact ⟨i + 1, line', body, fault, place, found, wrong, next ▸ told⟩
    rw [readRows] at h
    cases found : rowOfLine? line with
    | none =>
      rw [found] at h
      exact later h
    | some body =>
      rw [found] at h
      dsimp only at h
      cases here : readRow body with
      | error fault =>
        rw [here] at h
        exact ⟨0, line, body, fault, rfl, found, here, (Except.error.inj h).symm⟩
      | ok row =>
        rw [here] at h
        refine later ?_
        cases rest : readRows (number + 1) lines with
        | error e' =>
          rw [rest] at h
          exact h
        | ok rows =>
          rw [rest] at h
          cases h

/-- The rows that are read from a text are those of its lines with brackets. -/
theorem forall₂_of_readSimple {text : String} {b : Solutions} (h : readSimple text = .ok b) :
    List.Forall₂ SaysRow ((rowLines text).filter fun line => IsBracketed line) b.rows := by
  rw [filter_isBracketed, ← forall₂_filterMap_iff]
  unfold readSimple at h
  cases read : readRows 1 (lines text.toList) with
  | error e =>
    rw [read] at h
    cases h
  | ok rows =>
    rw [read] at h
    obtain rfl := Except.ok.inj h
    rw [rows_pushAll]
    exact readRows_eq_ok_iff.mp read

/-- An error is about a row with brackets, and names its line. -/
theorem exists_fault_of_readSimple {text : String} {e : AnswerError} (h : readSimple text = .error e) :
    ∃ i line body fault, (lines text.toList)[i]? = some line ∧ rowOfLine? line = some body ∧
      readRow body = .error fault ∧ e = .line (i + 1) fault := by
  unfold readSimple at h
  cases read : readRows 1 (lines text.toList) with
  | ok rows =>
    rw [read] at h
    cases h
  | error e' =>
    rw [read] at h
    obtain rfl := Except.error.inj h
    obtain ⟨i, line, body, fault, place, found, wrong, told⟩ := exists_fault_of_readRows read
    exact ⟨i, line, body, fault, place, found, wrong, Nat.add_comm 1 i ▸ told⟩

/-- The rows are told to be rows by as many lines as there are exactly when none of these lines has lost a
bracket. What is wrong between brackets is an error, and nothing else is. -/
theorem readSimple_row_lines_iff (text : String) :
    ((∃ b, readSimple text = .ok b) ↔
      ∀ line ∈ rowLines text, IsBracketed line → ∃ row, SaysRow line row) ∧
    (∀ e, readSimple text = .error e → ∃ i line fault, (lines text.toList)[i]? = some line ∧
      IsBracketed line ∧ (∀ row, ¬SaysRow line row) ∧ e = .line (i + 1) fault) ∧
    ∀ b, readSimple text = .ok b →
      List.Forall₂ SaysRow ((rowLines text).filter fun line => IsBracketed line) b.rows ∧
      (List.Forall₂ SaysRow (rowLines text) b.rows ↔ ∀ line ∈ rowLines text, IsBracketed line) ∧
      (b.size = (rowLines text).length ↔ ∀ line ∈ rowLines text, IsBracketed line) := by
  have errors : ∀ e, readSimple text = .error e → ∃ i line fault, (lines text.toList)[i]? = some line ∧
      IsBracketed line ∧ (∀ row, ¬SaysRow line row) ∧ e = .line (i + 1) fault := by
    intro e h
    obtain ⟨i, line, body, fault, place, found, wrong, told⟩ := exists_fault_of_readSimple h
    refine ⟨i, line, fault, place, ?_, ?_, told⟩
    · rw [isBracketed_iff, found]
      rfl
    · rintro row ⟨other, same, read⟩
      obtain rfl := Option.some.inj (found.symm.trans same)
      cases wrong.symm.trans read
  refine ⟨⟨?_, ?_⟩, errors, ?_⟩
  · rintro ⟨b, h⟩ line hline whole
    have paired := (forall₂_of_readSimple h).imp fun l row read => And.intro (Exists.intro row read) read
    exact ((List.forall₂_and_left _ _).mp paired).1 line (List.mem_filter.mpr ⟨hline, by simpa using whole⟩)
  · intro readable
    cases h : readSimple text with
    | ok b => exact ⟨b, rfl⟩
    | error e =>
      obtain ⟨i, line, fault, place, whole, unread, _⟩ := errors e h
      have inside : line ∈ rowLines text := List.mem_filter.mpr
        ⟨List.mem_of_getElem? place, by simpa using whole.isRowLine⟩
      obtain ⟨row, read⟩ := readable line inside whole
      exact absurd read (unread row)
  · intro b h
    have rows := forall₂_of_readSimple h
    have sizes : b.size = (rowLines text).length ↔ ∀ line ∈ rowLines text, IsBracketed line := by
      have length : ((rowLines text).filter fun line => IsBracketed line).length = b.size := rows.length_eq
      rw [← length, List.length_filter_eq_length_iff]
      exact forall₂_congr fun line _ => decide_eq_true_iff
    refine ⟨rows, ⟨fun all => sizes.mp all.length_eq.symm, fun whole => ?_⟩, sizes⟩
    rwa [List.filter_eq_self.mpr fun line hline => by simpa using whole line hline] at rows

/-- The output of an engine that is cut off in its first row. -/
def cutOutput : String := "row: [a=uri<t:one>, b=string(\"x\nrow: [a=uri<t:two>]\n"

/-- The first of two rows is lost, and no error tells of it. -/
theorem size_of_cutOutput : ∃ b, readSimple cutOutput = .ok b ∧ b.size = 1 ∧
    (rowLines cutOutput).length = 2 ∧ ¬List.Forall₂ SaysRow (rowLines cutOutput) b.rows := by
  have count : (rowLines cutOutput).length = 2 := by decide +kernel
  refine ⟨Solutions.empty.pushAll [.ofPairs [("a", .iri "t:two")]], by cbv, rfl, count, fun all => ?_⟩
  have lengths := all.length_eq
  rw [count] at lengths
  cases lengths

end SparqlConformance.Simple
