import SparqlConformance.Answers.Comparison
import SparqlConformance.Proofs.CsvRecords
import SparqlConformance.Proofs.IriCharacters
import SparqlConformance.Proofs.NamedRows
/-!
# Solutions through CSV

Solutions that are written as CSV and read back are the projection of the solutions to what CSV tells.
Reading takes a value for what it looks like, and the projection looks at the lexical form of a literal in
the same way, so the strict comparison sees no difference.
-/
namespace SparqlConformance

namespace Solutions

/-- What a term is in CSV. -/
def csvValue : Term → String
  | .iri text => text
  | .blank label => "_:" ++ label
  | .literal l => l.value

def csvFields (vars : List String) (row : Solution) : List String :=
  vars.map fun v => ((row.get? v).map csvValue).getD ""

/-- A header with the variables, and a record for each row. -/
def csvText (b : Solutions) : String :=
  String.ofList (Csv.writeRecords (b.vars :: b.rows.map (csvFields b.vars)))

/-- A value is read as what the projection makes of its term. -/
theorem csvTerm?_csvValue {t : Term} (valid : t.IsValid) : csvTerm? (csvValue t) = throughCsv t := by
  cases t with
  | literal l => rfl
  | iri text =>
    have absolute : Iri.isAbsolute text.toList = true := valid
    obtain ⟨c, r, htext, letter⟩ := Iri.head_of_isAbsolute absolute
    unfold csvTerm? csvValue throughCsv
    dsimp only
    rw [if_neg (by simp [htext])]
    split
    · rename_i label hlabel
      rw [htext] at hlabel
      split at hlabel
      · rename_i hmark
        obtain ⟨rfl, _⟩ := List.cons.inj hmark
        exact absurd letter (by decide)
      · cases hlabel
    · rw [if_pos absolute]
  | blank label =>
    have wellFormed : isBlankLabel label.toList = true := valid
    have chars : (csvValue (.blank label)).toList = '_' :: ':' :: label.toList := by
      simp [csvValue]
    unfold csvTerm?
    rw [chars]
    simp [wellFormed, throughCsv]

theorem csvBindings_csvFields (vars : List String) (row : Solution) :
    csvBindings vars (csvFields vars row) = vars.filterMap fun v =>
      (csvTerm? (((row.get? v).map csvValue).getD "")).map fun t => (v, t) := by
  induction vars with
  | nil => rfl
  | cons v vars ih =>
    unfold csvBindings csvFields at ih ⊢
    rw [List.map_cons, List.zip_cons_cons, List.filterMap_cons, List.filterMap_cons, ih]

/-- A row is read as its projection. -/
theorem ofPairs_csvBindings {vars : List String} (once : vars.Nodup) {row : Solution}
    (declared : ∀ v ∈ row.names, v ∈ vars) (valid : ∀ bound ∈ row.bindings, bound.2.IsValid) :
    Solution.ofPairs (csvBindings vars (csvFields vars row)) = row.filterMap throughCsv := by
  have read : ∀ v, csvTerm? (((row.get? v).map csvValue).getD "") = (row.get? v).bind throughCsv := by
    intro v
    cases bound : row.get? v with
    | none => rfl
    | some t => exact csvTerm?_csvValue (valid _ (Solution.get?_eq_some_iff.mp bound))
  have keys : (vars.map id).Nodup := (List.map_id vars).symm ▸ once
  refine Solution.ext_get? fun name => Option.ext fun value => ?_
  rw [csvBindings_csvFields, Solution.get?_filterMap, ← read]
  refine (Solution.get?_ofPairs_filterMap _ keys).trans ?_
  constructor
  · rintro ⟨_, _, rfl, found⟩
    exact found
  · intro found
    have bound : name ∈ row.names := by
      rw [read] at found
      obtain ⟨t, ht, _⟩ := Option.bind_eq_some_iff.mp found
      exact Solution.mem_names_of_get? ht
    exact ⟨name, declared name bound, rfl, found⟩

theorem mem_of_mem_names_csvBindings {vars fields : List String} {v : String}
    (h : v ∈ (Solution.ofPairs (csvBindings vars fields)).names) : v ∈ vars := by
  obtain ⟨⟨n, t⟩, bound, rfl⟩ := List.mem_map.mp (Solution.mem_of_mem_names_ofPairs h)
  obtain ⟨⟨m, field⟩, paired, found⟩ := List.mem_filterMap.mp bound
  obtain ⟨_, _, heq⟩ := Option.map_eq_some_iff.mp found
  obtain ⟨rfl, _⟩ := Prod.mk.inj heq
  exact (List.of_mem_zip paired).1

theorem pushRecords_eq_ok {vars : List String} {b : Solutions} (known : b.vars = vars)
    {records : List Csv.Record} (fits : ∀ r ∈ records, r.fields.length ≤ vars.length) :
    ∃ c, pushRecords vars b records = .ok c ∧ c.vars = vars ∧ c.ordered = b.ordered ∧
      c.fidelity = b.fidelity ∧ c.rows = b.rows ++
        (records.map Csv.Record.fields).map fun fields => Solution.ofPairs (csvBindings vars fields) := by
  induction records generalizing b with
  | nil => exact ⟨b, rfl, known, rfl, rfl, by simp⟩
  | cons r records ih =>
    have fit : ¬ vars.length < r.fields.length := Nat.not_lt.mpr (fits r (List.mem_cons_self ..))
    have added : (b.push (Solution.ofPairs (csvBindings vars r.fields))).vars = vars := by
      have declared : ∀ v ∈ (Solution.ofPairs (csvBindings vars r.fields)).names, v ∈ b.vars :=
        fun v hv => known ▸ mem_of_mem_names_csvBindings hv
      exact (declareAll_of_subset declared).trans known
    obtain ⟨c, pushed, hvars, hordered, hfidelity, hrows⟩ :=
      ih added fun other h => fits other (List.mem_cons_of_mem _ h)
    refine ⟨c, ?_, hvars, hordered, hfidelity, ?_⟩
    · rw [pushRecords, if_neg fit]
      exact pushed
    · rw [hrows]
      simp [push]

/-- Solutions that CSV can carry: at least two variables with plain names, and valid terms. -/
structure IsCsvReady (b : Solutions) : Prop where
  two : 2 ≤ b.vars.length
  plain : ∀ v ∈ b.vars, IsPlainName v
  valid : ∀ row ∈ b.rows, ∀ bound ∈ row.bindings, bound.2.IsValid

theorem head?_writeRecords {v : String} (plain : IsPlainName v) (vars : List String)
    (records : List (List String)) :
    (Csv.writeRecords ((v :: vars) :: records)).head? ≠ some '\uFEFF' := by
  obtain ⟨c, r, hv⟩ : ∃ c r, v.toList = c :: r := by
    cases hv : v.toList with
    | nil => exact absurd (String.toList_eq_nil_iff.mp hv) plain.1
    | cons c r => exact ⟨c, r, rfl⟩
  have ascii : c ≠ '\uFEFF' := by
    rintro rfl
    exact absurd (plain.2 '\uFEFF' (hv ▸ List.mem_cons_self ..)) (by decide)
  obtain ⟨rest, text⟩ : ∃ rest, Csv.writeRecords ((v :: vars) :: records) =
      Csv.writeField v.toList ++ rest := by
    cases vars with
    | nil => exact ⟨_, by simp [Csv.writeRecords, Csv.writeRecord, Text.join]; rfl⟩
    | cons w vars => exact ⟨_, by simp [Csv.writeRecords, Csv.writeRecord, Text.join]; rfl⟩
  rw [text, Csv.writeField, hv]
  split
  · exact fun h => absurd (Option.some.inj h) (by decide)
  · simpa using ascii

/-- Written solutions are read as their projection. -/
theorem readCsv_csvText {b : Solutions} (ready : b.IsCsvReady) :
    ∃ c, readCsv b.csvText = .ok c ∧ c.vars = b.vars ∧ c.ordered = false ∧ c.fidelity = .csv ∧
      c.rows = b.rows.map (Solution.filterMap throughCsv) := by
  have wide : ∀ fields ∈ b.vars :: b.rows.map (csvFields b.vars), 2 ≤ fields.length := by
    intro fields h
    rcases List.mem_cons.mp h with rfl | h
    · exact ready.two
    · obtain ⟨row, _, rfl⟩ := List.mem_map.mp h
      simpa [csvFields] using ready.two
  obtain ⟨v, vars, hvars⟩ : ∃ v vars, b.vars = v :: vars := by
    cases hvars : b.vars with
    | nil => exact absurd (hvars ▸ ready.two) (by decide)
    | cons v vars => exact ⟨v, vars, rfl⟩
  have unmarked := head?_writeRecords (ready.plain v (hvars ▸ List.mem_cons_self ..)) vars
    (b.rows.map (csvFields b.vars))
  rw [← hvars] at unmarked
  obtain ⟨r, records, split, first, others⟩ := List.map_eq_cons_iff.mp
    (Csv.records_writeRecords wide unmarked)
  have names : (r.fields.map fun f => variableName f.toList).filter (fun v => !v.isEmpty) = b.vars := by
    have same : b.vars.map (fun f => variableName f.toList) = b.vars :=
      (List.map_congr_left fun v hv => variableName_of_isPlainName (ready.plain v hv)).trans
        (List.map_id _)
    rw [first, same, List.filter_eq_self]
    intro v hv
    simpa using (ready.plain v hv).1
  have fits : ∀ r ∈ records, r.fields.length ≤ b.vars.length := by
    intro r hr
    have written : r.fields ∈ b.rows.map (csvFields b.vars) := others ▸ List.mem_map_of_mem hr
    obtain ⟨row, _, heq⟩ := List.mem_map.mp written
    rw [← heq, csvFields, List.length_map]
  have declared : ((ofVariables b.vars).withFidelity .csv).vars = b.vars :=
    declareAll_of_nodup b.nodup
  obtain ⟨c, pushed, hc, hordered, hfidelity, hrows⟩ := pushRecords_eq_ok declared fits
  refine ⟨c, ?_, hc, hordered, hfidelity, ?_⟩
  · rw [readCsv, csvText, String.toList_ofList, split]
    dsimp only
    rw [names]
    exact pushed
  · rw [hrows, others, List.map_map]
    exact List.map_congr_left fun row hrow =>
      ofPairs_csvBindings b.nodup (b.declared row hrow) (ready.valid row hrow)

theorem csv_round_trip {b : Solutions} (full : b.fidelity = .full) (ready : b.IsCsvReady) :
    ∃ c, readCsv b.csvText = .ok c ∧ c.vars = b.vars ∧ c.size = b.size ∧
      (Answer.solutions c).compare (.solutions b) .strict = .same := by
  obtain ⟨c, read, hvars, hordered, hfidelity, hrows⟩ := readCsv_csvText ready
  refine ⟨c, read, hvars, by simp [size, hrows], ?_⟩
  have projected : c.fidelity = .csv ∧ b.fidelity ≠ .csv := ⟨hfidelity, by rw [full]; decide⟩
  have strict : ¬ (Cardinality.strict = .lax ∧ c.size ≤ b.size) := fun h => nomatch h.1
  have lines : (canonicalPair b c).1 = (canonicalPair b c).2 := by
    rw [canonicalPair, if_pos projected]
    simp only [render, toCsv, hrows]
  rw [Answer.compare, Comparison.ofSolutions, if_neg strict]
  exact if_pos lines

/-- Values that CSV does not tell from others, or that need quotes. -/
def doubtfulValues : Solutions :=
  (ofVariables ["x", "y"]).pushAll
    [.ofPairs [("x", .plain "a \"quoted\", long\r\nvalue"), ("y", .plain "t:one")],
      .ofPairs [("x", .literal (.tagged "_:b" "en")), ("y", .blank "b")],
      .ofPairs [("x", .plain ""), ("y", .iri "t:one")], .empty]

theorem csv_round_trip_doubtful :
    ∃ c, readCsv doubtfulValues.csvText = .ok c ∧ c.vars = doubtfulValues.vars ∧
      c.size = doubtfulValues.size ∧
      (Answer.solutions c).compare (.solutions doubtfulValues) .strict = .same :=
  csv_round_trip rfl ⟨by decide, by decide, by decide⟩

end Solutions

end SparqlConformance
