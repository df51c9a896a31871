import SparqlConformance.Proofs.SuiteCourses
import SparqlConformance.Runs.Run
/-!
# Courses of runs

What the report of a run tells about the suites that were prepared for it. Suites are run in order, each
from where the one before left, until none is left or one was interrupted.
-/
namespace SparqlConformance

variable {σ : Type}

/-- A prepared suite is run, and then given up. -/
def PreparedSuite.Runs (w : World σ) (settings : Settings) (p : PreparedSuite) (s : σ) (r : SuiteReport)
    (s' : σ) : Prop :=
  ∃ s₁, (p.suite.run w settings).run s = (r, s₁) ∧ s' = ((p.release w).run s₁).2

/-- A report is about the suite that was run. -/
def SuiteReport.IsAbout (p : PreparedSuite) (r : SuiteReport) : Prop :=
  r.name = p.suite.name ∧ r.directory = p.suite.directory ∧ r.description = p.suite.description

theorem PreparedSuite.Runs.isAbout {w : World σ} {settings : Settings} {p : PreparedSuite} {s s' : σ}
    {r : SuiteReport} (h : p.Runs w settings s r s') : r.IsAbout p := by
  obtain ⟨s₁, ran, _⟩ := h
  have about : ((p.suite.run w settings).run s).1.IsAbout p := ⟨rfl, rfl, rfl⟩
  rwa [ran] at about

theorem PreparedSuite.Runs.counts_eq {w : World σ} {settings : Settings} {p : PreparedSuite} {s s' : σ}
    {r : SuiteReport} (h : p.Runs w settings s r s') : r.counts = .tally r.outcomes := by
  obtain ⟨s₁, ran, _⟩ := h
  obtain ⟨_, _, _, _, _, _, counts⟩ := Suite.run_course w settings p.suite s
  rwa [ran] at counts

/-- How the reports of suites end when some suites are left, and whether that aborts the run. -/
inductive RunEnding (reports : List SuiteReport) (left : List PreparedSuite) : Bool → Prop
  | finished (calm : ∀ r ∈ reports, r.aborted = false) (none_left : left = []) :
      RunEnding reports left false
  | during {earlier : List SuiteReport} {last : SuiteReport} (reports_eq : reports = earlier ++ [last])
      (calm : ∀ r ∈ earlier, r.aborted = false) (aborted : last.aborted = true) :
      RunEnding reports left true

namespace RunEnding

variable {reports : List SuiteReport} {left : List PreparedSuite} {aborted : Bool}

/-- Suites end in the same way after one more that was not interrupted. -/
theorem cons {r : SuiteReport} (calm : r.aborted = false) (h : RunEnding reports left aborted) :
    RunEnding (r :: reports) left aborted := by
  have all : ∀ {rs : List SuiteReport}, (∀ r ∈ rs, r.aborted = false) →
      ∀ q ∈ r :: rs, q.aborted = false := by
    intro rs hrs q hq
    rcases List.mem_cons.mp hq with rfl | hq
    · exact calm
    · exact hrs q hq
  cases h with
  | finished calm none_left => exact .finished (all calm) none_left
  | during reports_eq calm aborted =>
    exact .during (by rw [reports_eq, List.cons_append]) (all calm) aborted

/-- A suite that was interrupted is the last one. -/
theorem eq_nil_of_aborted {earlier later : List SuiteReport} {r : SuiteReport}
    (h : RunEnding reports left aborted) (reports_eq : reports = earlier ++ r :: later)
    (interrupted : r.aborted = true) : later = [] ∧ aborted = true := by
  cases h with
  | finished calm =>
    have quiet := calm r (by rw [reports_eq]; exact List.mem_append_right _ List.mem_cons_self)
    rw [interrupted] at quiet
    cases quiet
  | @during first last ends calm =>
    refine ⟨?_, rfl⟩
    rcases List.eq_nil_or_concat later with rfl | ⟨init, x, rfl⟩
    · rfl
    · -- Otherwise the suite is among those before the last one.
      have split : first ++ [last] = (earlier ++ r :: init) ++ [x] := by
        rw [← ends, reports_eq, List.concat_eq_append, List.append_assoc, List.cons_append]
      have quiet := calm r (by
        rw [(List.append_inj' split rfl).1]
        exact List.mem_append_right _ List.mem_cons_self)
      rw [interrupted] at quiet
      cases quiet

end RunEnding

namespace Run

variable (w : World σ) (settings : Settings)

/-- From a report on, suites are run along a course until there is a reason to stop. -/
theorem suites_course (report : RunReport) (calm : report.aborted = false) (ps : List PreparedSuite)
    (s : σ) :
    ∃ done left reports s' aborted, ps = done ++ left ∧
      Course (PreparedSuite.Runs w settings) s done reports s' ∧ RunEnding reports left aborted ∧
      ((suites w settings report ps).run s).1 =
        ⟨report.suites ++ reports, report.totals.add (.tally (reports.flatMap SuiteReport.outcomes)),
          aborted, report.setupErrors⟩ := by
  induction ps generalizing report s with
  | nil =>
    refine ⟨[], [], [], s, false, rfl, .nil s, .finished (fun r hr => absurd hr List.not_mem_nil) rfl, ?_⟩
    rw [List.append_nil, List.flatMap_nil, Counts.tally, List.foldl_nil, Counts.add_zero, ← calm]
    rfl
  | cons p ps ih =>
    obtain ⟨r, s₁, ran⟩ : ∃ r s₁, (p.suite.run w settings).run s = (r, s₁) := ⟨_, _, rfl⟩
    obtain ⟨s₂, released⟩ : ∃ s₂, (p.release w).run s₁ = ((), s₂) := ⟨_, rfl⟩
    have here : p.Runs w settings s r s₂ := ⟨s₁, ran, by rw [released]⟩
    have totals : ∀ rs : List SuiteReport,
        (report.add r).totals.add (.tally (rs.flatMap SuiteReport.outcomes)) =
          report.totals.add (.tally ((r :: rs).flatMap SuiteReport.outcomes)) := by
      intro rs
      rw [List.flatMap_cons, Counts.tally_append, ← here.counts_eq, ← Counts.add_assoc]
      rfl
    have step : ((suites w settings report (p :: ps)).run s).1 =
        if r.aborted then report.add r else ((suites w settings (report.add r) ps).run s₂).1 := by
      rw [suites, run_bind_of_run ran, run_bind_of_run released]
      cases r.aborted <;> rfl
    rw [step]
    cases aborted : r.aborted with
    | true =>
      refine ⟨[p], ps, [r], s₂, true, rfl, .cons here (.nil s₂),
        .during (List.nil_append _).symm (fun r hr => absurd hr List.not_mem_nil) aborted, ?_⟩
      rw [← totals, List.flatMap_nil, Counts.tally, List.foldl_nil, Counts.add_zero, if_pos rfl,
        ← aborted]
      rfl
    | false =>
      obtain ⟨done, left, reports, s', aborted', rfl, course, ending, result⟩ :=
        ih (report.add r) aborted s₂
      refine ⟨p :: done, left, r :: reports, s', aborted', rfl, .cons here course,
        ending.cons aborted, ?_⟩
      rw [if_neg Bool.false_ne_true, result, totals]
      simp only [RunReport.add, List.append_assoc, List.singleton_append]

/-- A run that goes on after the preparation follows a course of suites, or is over at once. -/
theorem afterPreparation_course (ps : List PreparedSuite) (s : σ) :
    ∃ done left reports s' aborted, ps = done ++ left ∧
      Course (PreparedSuite.Runs w settings) (w.isInterrupted.run s).2 done reports s' ∧
      (RunEnding reports left aborted ∨
        (w.isInterrupted.run s).1 = true ∧ reports = [] ∧ aborted = true) ∧
      ((afterPreparation w settings ps).run s).1 =
        ⟨reports, .tally (reports.flatMap SuiteReport.outcomes), aborted, []⟩ := by
  obtain ⟨seen, s₁, flag⟩ : ∃ seen s₁, w.isInterrupted.run s = (seen, s₁) := ⟨_, _, rfl⟩
  rw [afterPreparation, run_bind_of_run flag, flag]
  cases seen with
  | true => exact ⟨[], ps, [], s₁, true, rfl, .nil s₁, .inr ⟨rfl, rfl, rfl⟩, rfl⟩
  | false =>
    obtain ⟨done, left, reports, s', aborted, ps_eq, course, ending, result⟩ :=
      suites_course w settings .empty rfl ps s₁
    refine ⟨done, left, reports, s', aborted, ps_eq, course, .inl ending, ?_⟩
    rw [if_neg Bool.false_ne_true, result, RunReport.empty, Counts.zero_add, List.nil_append]

end Run

/-- A report that tells the truth about suites that were prepared, when the run goes on from a state. -/
structure RunReport.Faithful (w : World σ) (settings : Settings) (prepared : Target.Prepared) (s : σ)
    (report : RunReport) : Prop where
  /-- The reports come from running the first suites, unless an interrupt is seen before them. -/
  ran : ∃ s', Course (PreparedSuite.Runs w settings) (w.isInterrupted.run s).2
    (prepared.suites.take report.suites.length) report.suites s'
  about : List.Forall₂ SuiteReport.IsAbout (prepared.suites.take report.suites.length) report.suites
  setupErrors : report.setupErrors = prepared.errors
  totals : report.totals = .tally (report.records.map TestRecord.outcome)
  complete : report.aborted = false →
    report.suites.length = prepared.suites.length ∧ ∀ r ∈ report.suites, r.aborted = false
  /-- A suite that was interrupted ends the run. -/
  last : ∀ earlier r later, report.suites = earlier ++ r :: later → r.aborted = true →
    later = [] ∧ report.aborted = true
  /-- A run is only ended by an interrupt before the first suite or during the last one. -/
  stopped : report.aborted = true →
    (w.isInterrupted.run s).1 = true ∧ report.suites = [] ∨
      ∃ earlier r, report.suites = earlier ++ [r] ∧ r.aborted = true
  exitCode_interrupted : report.exitCode = 130 ↔ report.aborted = true
  exitCode_success : report.exitCode = 0 ↔ report.aborted = false ∧ report.setupErrors = [] ∧
    ∀ r ∈ report.records, r.outcome = .passed ∨ r.outcome = .skipped ∨ r.outcome = .xfailed

namespace RunReport

theorem exitCode_eq_interrupted_iff (report : RunReport) :
    report.exitCode = 130 ↔ report.aborted = true := by
  unfold exitCode
  cases report.aborted with
  | true => simp
  | false => cases report.totals.hasFailures || !report.setupErrors.isEmpty <;> simp

/-- A run succeeds if nothing was left out and nothing failed. -/
theorem exitCode_eq_zero_iff {report : RunReport}
    (totals : report.totals = .tally (report.records.map TestRecord.outcome)) :
    report.exitCode = 0 ↔ report.aborted = false ∧ report.setupErrors = [] ∧
      ∀ r ∈ report.records, r.outcome = .passed ∨ r.outcome = .skipped ∨ r.outcome = .xfailed := by
  have failures : report.totals.hasFailures = false ↔
      ∀ r ∈ report.records, r.outcome = .passed ∨ r.outcome = .skipped ∨ r.outcome = .xfailed := by
    rw [← Bool.not_eq_true, totals, Counts.hasFailures_tally_iff]
    constructor
    · intro none_failed r hr
      have kept : ¬(r.outcome = .failed ∨ r.outcome = .uxpassed) := fun failed =>
        none_failed ⟨r.outcome, List.mem_map_of_mem hr, failed⟩
      revert kept
      cases r.outcome <;> decide
    · rintro all ⟨o, ho, failed⟩
      obtain ⟨r, hr, rfl⟩ := List.mem_map.mp ho
      have := all r hr
      revert this failed
      cases r.outcome <;> decide
  rw [← failures]
  unfold exitCode
  cases report.aborted <;> cases report.totals.hasFailures <;> simp

end RunReport

/-- Whatever the tools do and whenever a run is interrupted, its report is faithful. -/
theorem Run.faithful_all (w : World σ) (settings : Settings) (targets : List Target) (s : σ) :
    ((Run.all w settings targets).run s).1.Faithful w settings
      ((prepareRun w settings targets).run s).1 ((prepareRun w settings targets).run s).2 := by
  obtain ⟨prepared, s₁, prepares⟩ : ∃ prepared s₁,
    (prepareRun w settings targets).run s = (prepared, s₁) := ⟨_, _, rfl⟩
  obtain ⟨done, left, reports, s', aborted, suites_eq, course, ending, result⟩ :=
    Run.afterPreparation_course w settings prepared.suites s₁
  have report_eq : ((Run.all w settings targets).run s).1 =
      ⟨reports, .tally (reports.flatMap SuiteReport.outcomes), aborted, prepared.errors⟩ := by
    rw [Run.all, run_bind_of_run prepares]
    exact congrArg (fun r : RunReport => { r with setupErrors := prepared.errors }) result
  have taken : prepared.suites.take reports.length = done := by
    rw [suites_eq, course.take_append]
  have length : prepared.suites.length = reports.length + left.length := by
    rw [suites_eq, List.length_append, course.length_eq]
  have totals : Counts.tally (reports.flatMap SuiteReport.outcomes) =
      .tally ((reports.flatMap SuiteReport.records).map TestRecord.outcome) := by
    rw [List.map_flatMap]
    rfl
  rw [prepares, report_eq]
  constructor
  case ran => exact ⟨s', taken ▸ course⟩
  case about => exact taken ▸ course.forall₂ fun _ _ _ _ runs => runs.isAbout
  case setupErrors => rfl
  case totals => exact totals
  case complete =>
    rintro rfl
    rcases ending with ⟨calm, rfl⟩ | ⟨_, _, aborted⟩
    · exact ⟨length.symm, calm⟩
    · cases aborted
  case last =>
    intro earlier r later reports_eq interrupted
    rcases ending with ending | ⟨_, none, _⟩
    · exact ending.eq_nil_of_aborted reports_eq interrupted
    · exact absurd (none.symm.trans reports_eq).symm (by simp)
  case stopped =>
    rintro rfl
    rcases ending with ending | ⟨seen, none, _⟩
    · cases ending with
      | during reports_eq _ interrupted => exact .inr ⟨_, _, reports_eq, interrupted⟩
    · exact .inl ⟨seen, none⟩
  case exitCode_interrupted => exact RunReport.exitCode_eq_interrupted_iff _
  case exitCode_success => exact RunReport.exitCode_eq_zero_iff totals

end SparqlConformance
