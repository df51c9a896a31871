import Mathlib.Data.List.Forall2
import SparqlConformance.Proofs.EarnedPasses
import SparqlConformance.Suites.Run
/-!
# Courses of suites

What the report of a suite tells about the tests that were run. Tests are run for as long as nobody has
interrupted the run, each from the state that the one before left, and there are three reasons to stop: no
test is left, an interrupt was seen before a test, or it was seen during a test, whose record says so.
-/
namespace SparqlConformance

namespace Counts

theorem zero_add (c : Counts) : zero.add c = c := by
  simp [zero, add]

theorem add_zero (c : Counts) : c.add zero = c := by
  simp [zero, add]

theorem add_assoc (c d e : Counts) : (c.add d).add e = c.add (d.add e) := by
  simp [add, Nat.add_assoc]

theorem record_eq_add (c : Counts) (o : Outcome) : c.record o = c.add (zero.record o) := by
  cases o <;> simp [record, zero, add]

/-- Counting goes on from where it stands. -/
theorem foldl_record (os : List Outcome) (c : Counts) : os.foldl record c = c.add (tally os) := by
  induction os generalizing c with
  | nil => exact (add_zero c).symm
  | cons o os ih =>
    have rest : tally (o :: os) = (zero.record o).add (tally os) := ih (zero.record o)
    rw [List.foldl_cons, ih, rest, record_eq_add, add_assoc]

theorem tally_cons (o : Outcome) (os : List Outcome) :
    tally (o :: os) = (zero.record o).add (tally os) :=
  foldl_record os (zero.record o)

theorem tally_append (os os' : List Outcome) : tally (os ++ os') = (tally os).add (tally os') := by
  rw [tally, List.foldl_append, foldl_record]
  rfl

theorem hasFailures_iff {c : Counts} : c.hasFailures = true ↔ 0 < c.failures := decide_eq_true_iff

theorem hasFailures_add_iff {c d : Counts} :
    (c.add d).hasFailures = true ↔ c.hasFailures = true ∨ d.hasFailures = true := by
  simp only [hasFailures_iff, failures, add]
  omega

/-- Counts tell whether there was a failure. -/
theorem hasFailures_tally_iff {os : List Outcome} :
    (tally os).hasFailures = true ↔ ∃ o ∈ os, o = .failed ∨ o = .uxpassed := by
  have one : ∀ o : Outcome, (zero.record o).hasFailures = true ↔ o = .failed ∨ o = .uxpassed := by
    intro o
    cases o <;> decide
  induction os with
  | nil => simp [tally, zero, hasFailures_iff, failures]
  | cons o os ih =>
    rw [tally_cons, hasFailures_add_iff, one, List.exists_mem_cons_iff]
    exact or_congr_right ih

end Counts

/-- Steps taken for the items of a list one after the other, each from where the one before ended. -/
inductive Course {σ α β : Type} (step : α → σ → β → σ → Prop) : σ → List α → List β → σ → Prop
  | nil (s : σ) : Course step s [] [] s
  | cons {s s₁ s₂ : σ} {a : α} {b : β} {as : List α} {bs : List β} (here : step a s b s₁)
      (later : Course step s₁ as bs s₂) : Course step s (a :: as) (b :: bs) s₂

namespace Course

variable {σ α β : Type} {step : α → σ → β → σ → Prop} {s s' : σ} {as : List α} {bs : List β}

/-- What every step says of an item and its result holds all along. -/
theorem forall₂ {r : α → β → Prop} (h : Course step s as bs s')
    (each : ∀ a s b s', step a s b s' → r a b) : List.Forall₂ r as bs := by
  induction h with
  | nil => exact .nil
  | cons here _ ih => exact .cons (each _ _ _ _ here) ih

theorem length_eq (h : Course step s as bs s') : as.length = bs.length :=
  (h.forall₂ (r := fun _ _ => True) fun _ _ _ _ _ => trivial).length_eq

/-- A course along the beginning of a list takes as many items as there are results. -/
theorem take_append (h : Course step s as bs s') (rest : List α) :
    (as ++ rest).take bs.length = as := by
  rw [← h.length_eq, List.take_left]

end Course

variable {σ : Type}

/-- A step goes on from where the one before it ended. -/
theorem run_bind_of_run {α β : Type} {first : StateM σ α} {next : α → StateM σ β} {s s₁ : σ} {a : α}
    (h : first.run s = (a, s₁)) : (first >>= next).run s = (next a).run s₁ := by
  rw [StateT.run_bind, h]
  rfl

/-- A test runs while nobody has interrupted the run. -/
def TestBed.RunsCalmly (w : World σ) (b : TestBed) (t : TestCase) (s : σ) (r : TestRecord) (s' : σ) :
    Prop :=
  ∃ s₁, w.isInterrupted.run s = (false, s₁) ∧ (b.run w t).run s₁ = (r, s')

/-- A record is about the test that was run. -/
def TestRecord.IsAbout (t : TestCase) (r : TestRecord) : Prop := r.test = t.uri ∧ r.name = t.name

theorem TestRecord.isAbout_withCompletion {t : TestCase} {r : TestRecord} (about : r.IsAbout t)
    (c : Completion) (lines : Nat) (interrupted : Bool) :
    (r.withCompletion c lines interrupted).IsAbout t := by
  obtain ⟨test, name, -⟩ := withCompletion_spec r c lines interrupted
  exact ⟨test.trans about.1, name.trans about.2⟩

theorem TestBed.isAbout_run (w : World σ) (b : TestBed) (t : TestCase) (s : σ) :
    ((b.run w t).run s).1.IsAbout t := by
  rcases TestBed.run_cases w b t s with ⟨reason, h⟩ | ⟨f, elapsed, h⟩ | ⟨f, elapsed, c, interrupted, h⟩
  · rw [h]
    exact ⟨rfl, rfl⟩
  · rw [h]
    exact ⟨rfl, rfl⟩
  · rw [h]
    exact TestRecord.isAbout_withCompletion ⟨rfl, rfl⟩ c _ interrupted

/-- Why no more tests of a suite are run, and whether the suite counts as aborted. -/
inductive SuiteEnding (w : World σ) (records : List TestRecord) (left : List TestCase) (s : σ) : Bool → Prop
  | finished (calm : ∀ r ∈ records, r.interrupted = false) (none_left : left = []) :
      SuiteEnding w records left s false
  | before (calm : ∀ r ∈ records, r.interrupted = false) (some_left : left ≠ [])
      (seen : (w.isInterrupted.run s).1 = true) : SuiteEnding w records left s true
  | during {earlier : List TestRecord} {last : TestRecord} (records_eq : records = earlier ++ [last])
      (calm : ∀ r ∈ earlier, r.interrupted = false) (interrupted : last.interrupted = true) :
      SuiteEnding w records left s true

namespace SuiteEnding

variable {w : World σ} {records : List TestRecord} {left : List TestCase} {s : σ} {aborted : Bool}

/-- Reasons to stop are the same after one more record without an interrupt in front. -/
theorem cons {r : TestRecord} (calm : r.interrupted = false) (h : SuiteEnding w records left s aborted) :
    SuiteEnding w (r :: records) left s aborted := by
  have all : ∀ {rs : List TestRecord}, (∀ r ∈ rs, r.interrupted = false) →
      ∀ q ∈ r :: rs, q.interrupted = false := by
    intro rs hrs q hq
    rcases List.mem_cons.mp hq with rfl | hq
    · exact calm
    · exact hrs q hq
  cases h with
  | finished calm none_left => exact .finished (all calm) none_left
  | before calm some_left seen => exact .before (all calm) some_left seen
  | during records_eq calm interrupted =>
    exact .during (by rw [records_eq, List.cons_append]) (all calm) interrupted

end SuiteEnding

namespace Suite

variable (w : World σ) (b : TestBed)

/-- From given progress on, tests are run along a course until there is a reason to stop. -/
theorem runTests_course (p : SuiteProgress) (calm : p.aborted = false) (tests : List TestCase) (s : σ) :
    ∃ done left records s' aborted, tests = done ++ left ∧
      Course (b.RunsCalmly w) s done records s' ∧ SuiteEnding w records left s' aborted ∧
      ((runTests w b p tests).run s).1 =
        ⟨p.records ++ records, p.counts.add (.tally (records.map TestRecord.outcome)), aborted⟩ := by
  induction tests generalizing p s with
  | nil =>
    refine ⟨[], [], [], s, false, rfl, .nil s, .finished (fun r hr => absurd hr List.not_mem_nil) rfl, ?_⟩
    rw [List.append_nil, List.map_nil, Counts.tally, List.foldl_nil, Counts.add_zero, ← calm]
    rfl
  | cons t ts ih =>
    obtain ⟨seen, s₁, flag⟩ : ∃ seen s₁, w.isInterrupted.run s = (seen, s₁) := ⟨_, _, rfl⟩
    cases seen with
    | true =>
      refine ⟨[], t :: ts, [], s, true, rfl, .nil s,
        .before (fun r hr => absurd hr List.not_mem_nil) (List.cons_ne_nil _ _) (by rw [flag]), ?_⟩
      rw [runTests, run_bind_of_run flag, List.append_nil, List.map_nil, Counts.tally, List.foldl_nil,
        Counts.add_zero]
      rfl
    | false =>
      obtain ⟨r, s₂, ran⟩ : ∃ r s₂, (b.run w t).run s₁ = (r, s₂) := ⟨_, _, rfl⟩
      have counts : ∀ rs : List TestRecord, (p.counts.record r.outcome).add
          (.tally (rs.map TestRecord.outcome)) =
            p.counts.add (.tally ((r :: rs).map TestRecord.outcome)) := by
        intro rs
        rw [List.map_cons, Counts.tally_cons, Counts.record_eq_add, Counts.add_assoc]
      have step : ((runTests w b p (t :: ts)).run s).1 = if r.interrupted then p.add r
          else ((runTests w b (p.add r) ts).run s₂).1 := by
        rw [runTests, run_bind_of_run flag, if_neg Bool.false_ne_true, run_bind_of_run ran]
        cases r.interrupted <;> rfl
      rw [step]
      cases interrupted : r.interrupted with
      | true =>
        refine ⟨[t], ts, [r], s₂, true, rfl, .cons ⟨s₁, flag, ran⟩ (.nil s₂),
          .during (List.nil_append _).symm (fun r hr => absurd hr List.not_mem_nil) interrupted, ?_⟩
        rw [← counts, List.map_nil, Counts.tally, List.foldl_nil, Counts.add_zero, if_pos rfl,
          ← interrupted]
        rfl
      | false =>
        obtain ⟨done, left, records, s', aborted, rfl, course, ending, result⟩ :=
          ih (p.add r) interrupted s₂
        refine ⟨t :: done, left, r :: records, s', aborted, rfl, .cons ⟨s₁, flag, ran⟩ course,
          ending.cons interrupted, ?_⟩
        rw [if_neg Bool.false_ne_true, result, ← counts]
        simp only [SuiteProgress.add, List.append_assoc, List.singleton_append]

/-- The report of a suite is made from a course of its tests. -/
theorem run_course (settings : Settings) (suite : Suite) (s : σ) :
    ∃ done left s', suite.tests = done ++ left ∧
      let report := ((suite.run w settings).run s).1
      Course ((suite.testBed settings).RunsCalmly w) s done report.records s' ∧
        SuiteEnding w report.records left s' report.aborted ∧ report.counts = .tally report.outcomes := by
  obtain ⟨done, left, records, s', aborted, tests, course, ending, result⟩ :=
    runTests_course w (suite.testBed settings) .start rfl suite.tests s
  have told : ∀ p, ((runTests w (suite.testBed settings) .start suite.tests).run s).1 = p →
      ((suite.run w settings).run s).1.records = p.records ∧
        ((suite.run w settings).run s).1.counts = p.counts ∧
        ((suite.run w settings).run s).1.aborted = p.aborted := by
    rintro p rfl
    exact ⟨rfl, rfl, rfl⟩
  obtain ⟨records_eq, counts_eq, aborted_eq⟩ := told _ result
  refine ⟨done, left, s', tests, ?_⟩
  dsimp only
  rw [SuiteReport.outcomes, records_eq, counts_eq, aborted_eq]
  refine ⟨course, ending, ?_⟩
  rw [SuiteProgress.start, Counts.zero_add, List.nil_append]

end Suite

/-- A report that tells the truth about tests that were to be run from a state on. -/
structure SuiteReport.Faithful (w : World σ) (b : TestBed) (tests : List TestCase) (s : σ)
    (report : SuiteReport) : Prop where
  /-- The records come from running the first tests, and an interrupt was seen before none of them. -/
  ran : ∃ s', Course (b.RunsCalmly w) s (tests.take report.records.length) report.records s'
  about : List.Forall₂ TestRecord.IsAbout (tests.take report.records.length) report.records
  counts : report.counts = .tally (report.records.map TestRecord.outcome)
  status : report.status = "fail" ↔
    ∃ r ∈ report.records, r.outcome = .failed ∨ r.outcome = .uxpassed
  complete : report.aborted = false →
    report.records.length = tests.length ∧ ∀ r ∈ report.records, r.interrupted = false
  /-- Only the last record may tell of an interrupt. -/
  earlier : report.aborted = true → ∀ r ∈ report.records.dropLast, r.interrupted = false
  /-- When no record tells of an interrupt, it was seen before the next test. -/
  stopped : report.aborted = true → (∀ r ∈ report.records, r.interrupted = false) →
    report.records.length < tests.length ∧
      ∃ s', Course (b.RunsCalmly w) s (tests.take report.records.length) report.records s' ∧
        (w.isInterrupted.run s').1 = true

theorem SuiteReport.status_eq_fail_iff {report : SuiteReport}
    (counts : report.counts = .tally report.outcomes) :
    report.status = "fail" ↔ ∃ r ∈ report.records, r.outcome = .failed ∨ r.outcome = .uxpassed := by
  have status : report.status = "fail" ↔ report.counts.hasFailures = true := by
    unfold status hasFailed
    cases report.counts.hasFailures <;> simp
  rw [status, counts, Counts.hasFailures_tally_iff, outcomes]
  constructor
  · rintro ⟨o, ho, failed⟩
    obtain ⟨r, hr, rfl⟩ := List.mem_map.mp ho
    exact ⟨r, hr, failed⟩
  · rintro ⟨r, hr, failed⟩
    exact ⟨r.outcome, List.mem_map_of_mem hr, failed⟩

/-- Whatever the engine does and whenever the run is interrupted, the report of a suite is faithful. -/
theorem Suite.faithful_run (w : World σ) (settings : Settings) (suite : Suite) (s : σ) :
    ((suite.run w settings).run s).1.Faithful w (suite.testBed settings) suite.tests s := by
  obtain ⟨done, left, s', tests, course, ending, counts⟩ := Suite.run_course w settings suite s
  generalize ((suite.run w settings).run s).1 = report at course ending counts ⊢
  have taken : suite.tests.take report.records.length = done := by
    rw [tests, course.take_append]
  have length : suite.tests.length = report.records.length + left.length := by
    rw [tests, List.length_append, course.length_eq]
  have course : Course ((suite.testBed settings).RunsCalmly w) s
      (suite.tests.take report.records.length) report.records s' := taken ▸ course
  constructor
  case ran => exact ⟨s', course⟩
  case about =>
    refine course.forall₂ ?_
    rintro t s₁ r s₂ ⟨s₃, _, ran⟩
    have about := TestBed.isAbout_run w (suite.testBed settings) t s₃
    rwa [ran] at about
  case counts => exact counts
  case status => exact SuiteReport.status_eq_fail_iff counts
  case complete =>
    intro complete
    rw [complete] at ending
    obtain ⟨calm, rfl⟩ := ending
    exact ⟨length.symm, calm⟩
  case earlier =>
    intro aborted
    rw [aborted] at ending
    cases ending with
    | before calm => exact fun r hr => calm r (List.dropLast_subset _ hr)
    | during records_eq calm => rwa [records_eq, List.dropLast_concat]
  case stopped =>
    intro aborted calm
    rw [aborted] at ending
    cases ending with
    | before _ some_left seen =>
      have := List.length_pos_iff.mpr some_left
      exact ⟨by omega, s', course, seen⟩
    | @during _ last records_eq _ interrupted =>
      have quiet := calm last (by rw [records_eq]; exact List.mem_concat_self)
      rw [interrupted] at quiet
      cases quiet

end SparqlConformance
