import SparqlConformance.Proofs.AbnormalEnds
import SparqlConformance.Proofs.IndexedTriples
import SparqlConformance.Proofs.PlannedTests
/-!
# Skipped tests

Whether a test is skipped is decided once, when its entry is read: for its type, for what people thought of it,
or for its entailment regime. An entry without a name describes no test, and neither does one that is not
skipped and has no query. So all that is left to decide when a test is run is whether anything is run.
-/
namespace SparqlConformance

namespace TestKind

/-- The types of tests that are never run. -/
def unsupported : List String :=
  ["UpdateEvaluationTest", "ProtocolTest", "ServiceDescriptionTest", "GraphStoreProtocolTest"].map
    Vocab.manifest

/-- The first type that means something is one of tests that are never run. -/
def IsUnsupported (types : List String) : Prop :=
  ∃ front iri back, types = front ++ iri :: back ∧ (∀ i ∈ front, i ∉ known.map TestKind.iri) ∧
    iri ∈ unsupported

theorem isUnknown_ofIri_iff {iri : String} : (ofIri iri).isUnknown = true ↔ iri ∉ known.map TestKind.iri := by
  have named : ∀ k ∈ known, k.isUnknown = false := by decide
  unfold ofIri
  cases found : known.find? fun k => k.iri == iri with
  | none =>
    refine iff_of_true rfl ?_
    rintro listed
    obtain ⟨k, hk, same⟩ := List.mem_map.mp listed
    exact absurd (beq_iff_eq.mpr same) (List.find?_eq_none.mp found k hk)
  | some k =>
    have member := List.mem_of_find?_eq_some found
    have same := List.find?_some found
    refine iff_of_false (by simp [named k member]) fun other => other ?_
    exact List.mem_map.mpr ⟨k, member, beq_iff_eq.mp same⟩

theorem shouldSkip_ofIri_iff {iri : String} : (ofIri iri).shouldSkip = true ↔ iri ∈ unsupported := by
  constructor
  · intro skips
    rw [← iri_ofIri iri]
    generalize ofIri iri = k at skips
    cases k with
    | updateEvaluation => decide
    | protocol => decide
    | serviceDescription => decide
    | graphStoreProtocol => decide
    | _ => cases skips
  · intro listed
    have all : ∀ iri ∈ unsupported, (ofIri iri).shouldSkip = true := by decide +kernel
    exact all iri listed

theorem isUnknown_of_shouldSkip {k : TestKind} (h : k.shouldSkip = true) : k.isUnknown = false := by
  cases k with
  | unknown iri => cases h
  | _ => rfl

theorem shouldSkip_of_isUnknown {k : TestKind} (h : k.isUnknown = true) : k.shouldSkip = false := by
  cases k with
  | unknown iri => rfl
  | _ => cases h

/-- Types that mean nothing do not matter, and of the others only the first one does. -/
theorem shouldSkip_ofTypes_iff {types : List String} :
    (ofTypes types).shouldSkip = true ↔ IsUnsupported types := by
  have unfolded : ofTypes types = ((types.find? fun i => !(ofIri i).isUnknown).map ofIri).getD
      ((types.map ofIri).head?.getD queryEvaluation) := by
    rw [ofTypes, List.find?_map]
    rfl
  rw [unfolded]
  constructor
  · intro skips
    cases found : types.find? fun i => !(ofIri i).isUnknown with
    | none =>
      rw [found] at skips
      cases types with
      | nil => cases skips
      | cons iri types =>
        have unknown := List.find?_eq_none.mp found iri List.mem_cons_self
        rw [Bool.not_eq_true, Bool.not_eq_false'] at unknown
        have skips : (ofIri iri).shouldSkip = true := skips
        rw [shouldSkip_of_isUnknown unknown] at skips
        cases skips
    | some iri =>
      rw [found] at skips
      obtain ⟨_, front, back, split, before⟩ := List.find?_eq_some_iff_append.mp found
      refine ⟨front, iri, back, split, fun i hi => ?_, shouldSkip_ofIri_iff.mp skips⟩
      exact isUnknown_ofIri_iff.mp (by simpa using before i hi)
  · rintro ⟨front, iri, back, split, before, listed⟩
    have skips := shouldSkip_ofIri_iff.mpr listed
    have found : (types.find? fun i => !(ofIri i).isUnknown) = some iri := by
      refine List.find?_eq_some_iff_append.mpr ⟨?_, front, back, split, fun i hi => ?_⟩
      · rw [isUnknown_of_shouldSkip skips]
        rfl
      · rw [isUnknown_ofIri_iff.mpr (before i hi)]
        rfl
    rw [found]
    exact skips

/-- Tests are run unless their kind is skipped, and only then something is expected of them. -/
theorem behavior_spec (k : TestKind) :
    k.behavior.execute = !k.shouldSkip ∧ (k.behavior.expected = .skip ↔ k.shouldSkip = true) := by
  cases k with
  | unknown iri => simp [behavior, shouldSkip]
  | _ => decide

end TestKind

namespace TestCase

section reading

variable (index : TripleIndex) (id : Term)

/-- The types of an entry, in the order in which they are given. -/
def typesOf : List String :=
  (index.objects id (Vocab.rdf "type")).filterMap fun
    | .iri iri => some iri
    | _ => none

/-- An entry that is not called anything. -/
def IsNameless : Prop :=
  (∀ iri, id ≠ .iri iri) ∧ ∀ l, index.object? id (Vocab.manifest "name") ≠ some (.literal l)

/-- An entry or its action names an entailment regime. -/
def HasRegime : Prop :=
  (∃ node, index.object? id (Vocab.manifest "action") = some node ∧
      index.objects node (Vocab.service "entailmentRegime") ≠ []) ∨
    index.objects id (Vocab.service "entailmentRegime") ≠ []

/-- The reasons not to run the test of an entry. -/
inductive Excluded (runEntailment : Bool) : Prop
  | unsupported (first : TestKind.IsUnsupported (typesOf index id))
  | withdrawn (said : .iri (Vocab.dawg "Withdrawn") ∈ index.objects id (Vocab.dawg "approval"))
  | rejected (said : .iri (Vocab.dawg "Rejected") ∈ index.objects id (Vocab.dawg "approval"))
  | entailment (disabled : runEntailment = false) (named : HasRegime index id)

/-- The action of an entry leads to a query: it names the file itself, or it is a blank node with a query or, if
it has none, with a request that does. -/
inductive Asks (p : Path) : Prop
  | itself (node : Term) (action : index.object? id (Vocab.manifest "action") = some node)
      (named : ∀ label, node ≠ .blank label) (file : file? index node = some p)
  | query (label : String) (t : Term)
      (action : index.object? id (Vocab.manifest "action") = some (.blank label))
      (first : index.object? (.blank label) (Vocab.query "query") = some t) (file : file? index t = some p)
  | request (label : String) (t : Term)
      (action : index.object? id (Vocab.manifest "action") = some (.blank label))
      (without : index.object? (.blank label) (Vocab.query "query") = none)
      (first : index.object? (.blank label) (Vocab.update "request") = some t)
      (file : file? index t = some p)

variable {index id}

theorem name?_eq_none_iff : name? index id = none ↔ IsNameless index id := by
  unfold name? IsNameless TripleIndex.literal?
  cases id with
  | iri iri => simp
  | blank label =>
    cases index.object? (.blank label) (Vocab.manifest "name") with
    | none => simp
    | some name => cases name <;> simp
  | literal l =>
    cases index.object? (.literal l) (Vocab.manifest "name") with
    | none => simp
    | some name => cases name <;> simp

theorem isSome_object?_iff {s : Term} {p : String} :
    (index.object? s p).isSome = true ↔ index.objects s p ≠ [] := by
  rw [TripleIndex.object?, List.isSome_head?]

theorem isSome_regimeOf_iff :
    (regimeOf index id (index.object? id (Vocab.manifest "action"))).isSome = true ↔ HasRegime index id := by
  unfold regimeOf HasRegime
  rw [Option.isSome_map, Option.isSome_or, Bool.or_eq_true, isSome_object?_iff]
  refine or_congr_left ?_
  cases index.object? id (Vocab.manifest "action") with
  | none => simp
  | some node => simp [isSome_object?_iff]

theorem hasApproval_iff {value : String} : hasApproval index id value = true ↔
    .iri (Vocab.dawg value) ∈ index.objects id (Vocab.dawg "approval") :=
  TripleIndex.contains_iff

theorem query_action_iff {p : Path} :
    (action index (index.object? id (Vocab.manifest "action"))).query = some p ↔ Asks index id p := by
  constructor
  · intro h
    cases found : index.object? id (Vocab.manifest "action") with
    | none =>
      rw [found] at h
      cases h
    | some node =>
      rw [found] at h
      cases node with
      | iri iri => exact .itself _ found nofun h
      | literal l => exact .itself _ found nofun h
      | blank label =>
        obtain ⟨t, first, file⟩ := Option.bind_eq_some_iff.mp h
        rcases Option.or_eq_some_iff.mp first with query | ⟨without, request⟩
        · exact .query label t found query file
        · exact .request label t found without request file
  · rintro (⟨node, found, named, file⟩ | ⟨label, t, found, first, file⟩ |
      ⟨label, t, found, without, first, file⟩)
    · rw [found]
      cases node with
      | blank label => exact absurd rfl (named label)
      | iri iri => exact file
      | literal l => exact file
    · simp only [found, action, first, Option.some_or, Option.bind_some, file]
    · simp only [found, action, without, first, Option.none_or, Option.bind_some, file]

/-- Why the test of an entry is not run. -/
def reason? (index : TripleIndex) (id : Term) (runEntailment : Bool) : Option String :=
  skipReason? index id (.ofTypes (typesOf index id))
    (regimeOf index id (index.object? id (Vocab.manifest "action"))) runEntailment

variable {runEntailment : Bool}

theorem isSome_reason?_iff : (reason? index id runEntailment).isSome = true ↔ Excluded index id runEntailment := by
  unfold reason? skipReason?
  constructor
  · intro h
    split at h
    · rename_i skips
      exact .unsupported (TestKind.shouldSkip_ofTypes_iff.mp skips)
    · split at h
      · rename_i said
        exact .withdrawn (hasApproval_iff.mp said)
      · split at h
        · rename_i said
          exact .rejected (hasApproval_iff.mp said)
        · split at h
          · rename_i disabled
            rw [Bool.and_eq_true, Bool.not_eq_true'] at disabled
            exact .entailment disabled.2 (isSome_regimeOf_iff.mp disabled.1)
          · cases h
  · rintro (first | said | said | ⟨disabled, named⟩)
    · rw [if_pos (TestKind.shouldSkip_ofTypes_iff.mpr first)]
      rfl
    · rw [if_pos (hasApproval_iff.mpr said)]
      split <;> rfl
    · rw [if_pos (hasApproval_iff.mpr said)]
      split_ifs <;> rfl
    · have off : ((regimeOf index id (index.object? id (Vocab.manifest "action"))).isSome &&
          !runEntailment) = true := by
        rw [isSome_regimeOf_iff.mpr named, disabled]
        rfl
      rw [if_pos off]
      split_ifs <;> rfl

/-- A reason that comes from an entry names a kind, or it is one of three words. -/
theorem reason?_cases {reason : String} (h : reason? index id runEntailment = some reason) :
    (∃ k : TestKind, reason = k.text ++ " tests are not supported") ∨
      reason ∈ ["withdrawn", "rejected", "entailment regime tests are disabled"] := by
  unfold reason? skipReason? at h
  split at h
  · exact .inl ⟨_, (Option.some.inj h).symm⟩
  · right
    split at h
    · exact Option.some.inj h ▸ by decide
    · split at h
      · exact Option.some.inj h ▸ by decide
      · split at h
        · exact Option.some.inj h ▸ by decide
        · cases h

/-- No reason that comes from an entry is one that a run may add. -/
theorem reason?_ne {reason : String} (h : reason? index id runEntailment = some reason) :
    reason ≠ "not executable" ∧ reason ≠ "no query" := by
  -- The texts differ in their first letter already.
  have start : reason.toList.head? ≠ some 'n' := by
    rcases reason?_cases h with ⟨k, rfl⟩ | listed
    · have angled : k.text.toList.head? = some '<' := by
        rw [TestKind.text, Term.text, String.toList_ofList]
        rfl
      rw [String.toList_append, List.head?_append, angled]
      decide
    · have all : ∀ reason ∈ ["withdrawn", "rejected", "entailment regime tests are disabled"],
          reason.toList.head? ≠ some 'n' := by decide
      exact all _ listed
  constructor
  · rintro rfl
    exact start (by decide)
  · rintro rfl
    exact start (by decide)

/-- The path of the query of an entry. -/
def query? (index : TripleIndex) (id : Term) : Option Path :=
  (action index (index.object? id (Vocab.manifest "action"))).query

theorem isSome_query?_iff : (query? index id).isSome = true ↔ ∃ p, Asks index id p := by
  rw [Option.isSome_iff_exists]
  exact exists_congr fun p => query_action_iff

variable {place : Path}

theorem ofEntry?_eq_none_iff : ofEntry? index place id runEntailment = none ↔
    name? index id = none ∨ reason? index id runEntailment = none ∧ query? index id = none := by
  have either : ((reason? index id runEntailment).isNone && (query? index id).isNone) = true ↔
      reason? index id runEntailment = none ∧ query? index id = none := by
    rw [Bool.and_eq_true, Option.isNone_iff_eq_none, Option.isNone_iff_eq_none]
  unfold ofEntry?
  split
  · rename_i nameless
    exact iff_of_true rfl (.inl nameless)
  · rename_i name named
    dsimp only
    split
    · rename_i neither
      exact iff_of_true rfl (.inr (either.mp neither))
    · rename_i described
      refine iff_of_false (Option.some_ne_none _) ?_
      rintro (nameless | neither)
      · exact Option.some_ne_none name (named.symm.trans nameless)
      · exact described (either.mpr neither)

/-- What a test takes from its entry, as far as it matters for whether it is run. -/
theorem fields_of_read {t : TestCase} (read : ofEntry? index place id runEntailment = some t) :
    let kind := TestKind.ofTypes (typesOf index id)
    t.query = query? index id ∧ t.skipReason = reason? index id runEntailment ∧
      t.execute = ((reason? index id runEntailment).isNone && kind.behavior.execute) ∧
      t.expected = if (reason? index id runEntailment).isSome then .skip else kind.behavior.expected := by
  unfold ofEntry? at read
  split at read
  · cases read
  · dsimp only at read
    split at read
    · cases read
    · obtain rfl := Option.some.inj read
      exact ⟨rfl, rfl, rfl, rfl⟩

/-- A test is skipped for a reason, and else it is executed with its query. -/
theorem decided_of_read {t : TestCase} (read : ofEntry? index place id runEntailment = some t) :
    (Excluded index id runEntailment ∧ (∃ reason, t.skipReason = some reason) ∧ t.expected = .skip ∧
        t.execute = false) ∨
      (¬ Excluded index id runEntailment ∧ t.skipReason = none ∧ t.expected ≠ .skip ∧ t.execute = true ∧
        ∃ query, Asks index id query ∧ t.query = some query) := by
  obtain ⟨query, skipReason, execute, expected⟩ := fields_of_read read
  cases decided : reason? index id runEntailment with
  | some reason =>
    rw [decided] at skipReason execute expected
    exact .inl ⟨isSome_reason?_iff.mp (by rw [decided]; rfl), ⟨reason, skipReason⟩, expected, execute⟩
  | none =>
    have allowed : ¬ Excluded index id runEntailment := by
      rw [← isSome_reason?_iff, decided]
      exact Bool.false_ne_true
    have runs : (TestKind.ofTypes (typesOf index id)).shouldSkip = false := by
      rw [← Bool.not_eq_true, TestKind.shouldSkip_ofTypes_iff]
      exact fun first => allowed (.unsupported first)
    obtain ⟨executed, skipped⟩ := TestKind.behavior_spec (.ofTypes (typesOf index id))
    rw [runs] at executed skipped
    rw [decided, Option.isNone_none, Bool.true_and, executed] at execute
    rw [decided, Option.isSome_none, if_neg Bool.false_ne_true] at expected
    obtain ⟨p, found⟩ : ∃ p, query? index id = some p := by
      rw [← Option.ne_none_iff_exists']
      intro without
      rw [ofEntry?_eq_none_iff.mpr (.inr ⟨decided, without⟩)] at read
      cases read
    refine .inr ⟨allowed, skipReason.trans decided, ?_, execute, p, query_action_iff.mp found,
      query.trans found⟩
    rw [expected]
    exact fun skip => Bool.false_ne_true (skipped.mp skip)

end reading

end TestCase

namespace TestBed

variable {σ : Type} (w : World σ) (b : TestBed) (t : TestCase)

/-- The three checks, each for the tests that it is meant for. -/
inductive IsCheck (query : Path) : StateM σ Finding → Prop
  | parses (kind : t.kind.isSyntax = true) : IsCheck query (b.checkSyntax w t query)
  | warns (kind : t.kind = .warning) : IsCheck query (b.checkWarning w t query)
  | answers (kind : t.kind.isSyntax = false ∧ t.kind ≠ .warning) : IsCheck query (b.checkEvaluation w t query)

/-- The record of a test that is checked. The check is timed, and what it finds is put down. -/
def recordCheck (check : StateM σ Finding) : StateM σ TestRecord := do
  let start ← w.now
  let finding ← check
  let finish ← w.now
  b.record w t finding (finish - start)

variable {w b t}

theorem isCheck_check (query : Path) : b.IsCheck w t query (b.check w t query) := by
  unfold check
  split
  · rename_i parsed
    exact .parses parsed
  · rename_i unparsed
    split
    · rename_i warned
      exact .warns warned
    · rename_i calm
      exact .answers ⟨by simpa using unparsed, calm⟩

/-- What is found by a check is never that the test was skipped. -/
theorem outcome_record_ne_skipped (executed : t.expected ≠ .skip) (f : Finding) (elapsed : Nat) (s : σ) :
    ((b.record w t f elapsed).run s).1.outcome ≠ .skipped := by
  have judged : (TestRecord.ofCheck t f elapsed).outcome ≠ .skipped := by
    rw [TestRecord.ofCheck]
    cases expected : t.expected with
    | skip => exact absurd expected executed
    | pass => cases f.verdict <;> simp [Outcome.judge]
    | fail => cases f.verdict <;> simp [Outcome.judge]
    | xfail => cases f.verdict <;> simp [Outcome.judge]
  rw [record_run]
  cases f.completion with
  | none => exact judged
  | some c =>
    obtain ⟨-, -, -, failed | ⟨-, -, same⟩⟩ := TestRecord.withCompletion_spec (.ofCheck t f elapsed) c
      b.settings.outputLines (c.interrupted || (w.isInterrupted.run s).1)
    · simp [failed]
    · simpa [same] using judged

/-- Of what may keep a test from being run, only its own reason and a dry run remain. -/
theorem run_of_read {index : TripleIndex} {place : Path} {id : Term} {runEntailment : Bool}
    (read : TestCase.ofEntry? index place id runEntailment = some t) :
    (∃ reason, t.skipReason = some reason ∧ b.run w t = pure (.skipped t.uri t.name reason)) ∨
      (t.skipReason = none ∧ b.settings.dryRun = true ∧
        b.run w t = pure (.skipped t.uri t.name "dry run")) ∨
      (t.skipReason = none ∧ b.settings.dryRun = false ∧ ∃ query, t.query = some query ∧
        b.run w t = b.recordCheck w t (b.check w t query)) := by
  rcases TestCase.decided_of_read read with ⟨-, ⟨reason, skipped⟩, -, -⟩ |
    ⟨-, unskipped, expected, execute, query, -, named⟩
  · have decided : b.skipReason? t = some reason := by
      unfold skipReason?
      rw [skipped]
    refine .inl ⟨reason, skipped, ?_⟩
    rw [run, decided]
  · have runnable : (!t.execute || t.expected == .skip) = false := by
      rw [execute, beq_eq_false_iff_ne.mpr expected]
      rfl
    cases dry : b.settings.dryRun with
    | true =>
      have decided : b.skipReason? t = some "dry run" := by
        unfold skipReason?
        rw [unskipped, runnable, dry]
        rfl
      refine .inr (.inl ⟨unskipped, rfl, ?_⟩)
      rw [run, decided]
    | false =>
      have decided : b.skipReason? t = none := by
        unfold skipReason?
        rw [unskipped, runnable, dry, named]
        rfl
      refine .inr (.inr ⟨unskipped, rfl, query, named, ?_⟩)
      rw [run, decided, named]
      rfl

/-- No run finds anything that should have been decided before. -/
theorem run_ne_skipped {index : TripleIndex} {place : Path} {id : Term} {runEntailment : Bool}
    (read : TestCase.ofEntry? index place id runEntailment = some t) (s : σ) (test name : String) :
    ((b.run w t).run s).1 ≠ .skipped test name "not executable" ∧
      ((b.run w t).run s).1 ≠ .skipped test name "no query" := by
  have differ : ∀ {uri detail reason : String}, detail ≠ reason →
      TestRecord.skipped uri t.name detail ≠ .skipped test name reason := fun other same =>
    other (congrArg TestRecord.detail same)
  rcases run_of_read (w := w) (b := b) read with ⟨reason, skipped, ran⟩ | ⟨-, -, ran⟩ |
    ⟨unskipped, -, query, -, ran⟩
  · obtain ⟨-, known, -, -⟩ := TestCase.fields_of_read read
    obtain ⟨executable, asked⟩ := TestCase.reason?_ne (known.symm.trans skipped)
    rw [ran]
    exact ⟨differ executable, differ asked⟩
  · rw [ran]
    exact ⟨differ (by decide), differ (by decide)⟩
  · have executed : t.expected ≠ .skip := by
      rcases TestCase.decided_of_read read with ⟨-, ⟨reason, skipped⟩, -, -⟩ | ⟨-, -, executed, -, -⟩
      · rw [unskipped] at skipped
        cases skipped
      · exact executed
    have checked : ((b.run w t).run s).1.outcome ≠ .skipped := by
      rw [ran]
      exact outcome_record_ne_skipped executed _ _ _
    exact ⟨fun same => checked (congrArg TestRecord.outcome same),
      fun same => checked (congrArg TestRecord.outcome same)⟩

end TestBed

namespace TestCase

/-- Skipping is decided once. An entry describes no test exactly if it has no name, or if there is neither
a reason to skip its test nor a query; a test is skipped and not executed if there is a reason, and else
executed with a query. So a run never finds that a test is not executable or has no query: it checks every
test without a reason, unless nothing is to be run. -/
theorem skipping_decided_once (index : TripleIndex) (place : Path) (id : Term) (runEntailment : Bool) :
    ( ofEntry? index place id runEntailment = none ↔
      IsNameless index id ∨ ¬ Excluded index id runEntailment ∧ ∀ p, ¬ Asks index id p) ∧
    ∀ t, ofEntry? index place id runEntailment = some t →
      ((Excluded index id runEntailment ∧ (∃ reason, t.skipReason = some reason) ∧ t.expected = .skip ∧
          t.execute = false) ∨
        (¬ Excluded index id runEntailment ∧ t.skipReason = none ∧ t.expected ≠ .skip ∧ t.execute = true ∧
          ∃ query, Asks index id query ∧ t.query = some query)) ∧
      ∀ {σ : Type} (w : World σ) (b : TestBed),
        (∀ s test name, ((b.run w t).run s).1 ≠ .skipped test name "not executable" ∧
          ((b.run w t).run s).1 ≠ .skipped test name "no query") ∧
        (t.skipReason = none → b.settings.dryRun = false → ∃ query check, t.query = some query ∧
          b.IsCheck w t query check ∧ b.run w t = b.recordCheck w t check) := by
  constructor
  · rw [ofEntry?_eq_none_iff, name?_eq_none_iff, ← isSome_reason?_iff, ← not_exists, ← isSome_query?_iff,
      Option.not_isSome_iff_eq_none, Option.not_isSome_iff_eq_none]
  · intro t read
    refine ⟨decided_of_read read, fun w b => ⟨TestBed.run_ne_skipped read, fun unskipped wet => ?_⟩⟩
    rcases TestBed.run_of_read (w := w) (b := b) read with ⟨reason, skipped, -⟩ | ⟨-, dry, -⟩ |
      ⟨-, -, query, named, ran⟩
    · rw [unskipped] at skipped
      cases skipped
    · rw [wet] at dry
      cases dry
    · exact ⟨query, _, named, TestBed.isCheck_check query, ran⟩

/-- An entry with a type that means nothing, whose action has an entailment regime. -/
def regimeIndex : TripleIndex :=
  (TripleIndex.empty "/d/m.nt").insertAll
    [⟨.blank "t", Vocab.rdf "type", .iri "t:Odd"⟩,
      ⟨.blank "t", Vocab.rdf "type", .iri (Vocab.manifest "PositiveSyntaxTest11")⟩,
      ⟨.blank "t", Vocab.manifest "name", .plain "one"⟩,
      ⟨.blank "t", Vocab.manifest "action", .blank "a"⟩,
      ⟨.blank "a", Vocab.query "query", .plain "q.rq"⟩,
      ⟨.blank "a", Vocab.service "entailmentRegime", .iri "t:RDFS"⟩]

/-- Its test is run or skipped as the settings say. -/
theorem skipping_decided_once_regime :
    let w := worldLeaving ⟨"", "", 0, false, false, 5⟩
    let b : TestBed := ⟨.standard, ⟨"/d"⟩, .inherited⟩
    ∃ t t', ofEntry? regimeIndex ⟨"/d/m.nt"⟩ (.blank "t") true = some t ∧
      ofEntry? regimeIndex ⟨"/d/m.nt"⟩ (.blank "t") false = some t' ∧
      (t.execute = true ∧ b.IsCheck w t ⟨"/d/q.rq"⟩ (b.checkSyntax w t ⟨"/d/q.rq"⟩) ∧
        b.run w t = b.recordCheck w t (b.checkSyntax w t ⟨"/d/q.rq"⟩)) ∧
      t'.skipReason = some "entailment regime tests are disabled" ∧ t'.expected = .skip ∧
        t'.execute = false := by
  intro w b
  have run : ( ofEntry? regimeIndex ⟨"/d/m.nt"⟩ (.blank "t") true).map
      (fun t => (t.kind, t.query, t.skipReason)) = some (.positiveSyntax11, some ⟨"/d/q.rq"⟩, none) := by
    decide +kernel
  have skipped : ( ofEntry? regimeIndex ⟨"/d/m.nt"⟩ (.blank "t") false).map TestCase.skipReason =
      some (some "entailment regime tests are disabled") := by
    decide +kernel
  obtain ⟨t, read, fields⟩ := Option.map_eq_some_iff.mp run
  obtain ⟨t', read', reason⟩ := Option.map_eq_some_iff.mp skipped
  obtain ⟨kind, rest⟩ := Prod.mk.inj fields
  obtain ⟨query, unskipped⟩ := Prod.mk.inj rest
  refine ⟨t, t', read, read', ?_, reason, ?_⟩
  · obtain ⟨_, tests⟩ := skipping_decided_once regimeIndex ⟨"/d/m.nt"⟩ (.blank "t") true
    obtain ⟨⟨-, ⟨reason, skips⟩, -⟩ | ⟨-, -, -, execute, -⟩, runs⟩ := tests t read
    · rw [unskipped] at skips
      cases skips
    · obtain ⟨_, check, named, checks, ran⟩ := (runs w b).2 unskipped rfl
      obtain rfl := Option.some.inj (query.symm.trans named)
      have parsed : t.kind.isSyntax = true := by
        rw [kind]
        rfl
      cases checks with
      | parses => exact ⟨execute, .parses parsed, ran⟩
      | warns warned =>
        rw [kind] at warned
        cases warned
      | answers other =>
        rw [parsed] at other
        cases other.1
  · obtain ⟨_, tests⟩ := skipping_decided_once regimeIndex ⟨"/d/m.nt"⟩ (.blank "t") false
    obtain ⟨⟨-, -, expected, execute⟩ | ⟨-, none, -⟩, -⟩ := tests t' read'
    · exact ⟨expected, execute⟩
    · rw [none] at reason
      cases reason

end TestCase

end SparqlConformance
