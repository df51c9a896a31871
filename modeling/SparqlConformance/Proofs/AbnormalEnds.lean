import Mathlib.Order.Lattice
import SparqlConformance.Proofs.EarnedPasses
import SparqlConformance.Proofs.ManifestLoading
/-!
# Abnormal ends

What is recorded of an engine that did not end by itself. A signal is told in two ways, by the system with a
negative exit code and by shells with a code above 128, and the record is the same. Signals and interrupts
fail a test whatever was expected of it; an engine that was out of time has only missed its chance to pass.
-/
namespace SparqlConformance

namespace Signal

theorem ofExitCode?_neg {n : Int} (positive : 1 ≤ n) (small : n ≤ 2147483647) :
    ofExitCode? (-n) = some ⟨n⟩ := by
  have highest : ((twoTo 31 : Nat) : Int) - 1 = 2147483647 := by decide
  rw [ofExitCode?, if_pos (by omega), highest, Int.neg_neg, min_eq_left small]

theorem ofExitCode?_shell {n : Int} (positive : 1 ≤ n) : ofExitCode? (128 + n) = some ⟨n⟩ := by
  rw [ofExitCode?, if_neg (by omega), if_pos (by omega)]
  congr
  omega

/-- The exit code for an interrupt tells of the signal for it. -/
theorem isInterrupt_of_interruptedExit {s : Signal} (told : ofExitCode? interruptedExit = some s) :
    s.isInterrupt = true := by
  obtain rfl := Option.some.inj (told.symm.trans (ofExitCode?_shell (n := 2) (by decide)))
  decide

end Signal

namespace TestRecord

variable (r : TestRecord) {c : Completion} (lines : Nat) (interrupted : Bool)

/-- After a signal, nothing in the record depends on what was found or expected before. -/
theorem withCompletion_of_signal {s : Signal} (inTime : c.timedOut = false)
    (told : Signal.ofExitCode? c.exitCode = some s) :
    r.withCompletion c lines interrupted =
      { test := r.test, name := r.name, outcome := .failed, exitCode := some c.exitCode, signal := some s
        timedOut := false, interrupted := interrupted || s.isInterrupt, output := c.tail lines
        detail := if interrupted || s.isInterrupt then "interrupted" else s!"engine killed by {s.text}"
        elapsed := c.elapsed } := by
  have stopped : (interrupted || c.exitCode == interruptedExit || s.isInterrupt) =
      (interrupted || s.isInterrupt) := by
    cases exit : c.exitCode == interruptedExit with
    | false => rw [Bool.or_false]
    | true =>
      rw [eq_of_beq exit] at told
      rw [Signal.isInterrupt_of_interruptedExit told, Bool.or_true, Bool.or_true]
  simp only [withCompletion, inTime, told, Bool.false_eq_true, if_false, Option.any_some, stopped]
  cases interrupted || s.isInterrupt <;> rfl

theorem withCompletion_of_timedOut (late : c.timedOut = true)
    (calm : (r.withCompletion c lines interrupted).interrupted = false) :
    r.withCompletion c lines interrupted =
      { r with exitCode := some c.exitCode, signal := none, timedOut := true, interrupted := false
               output := c.tail lines, elapsed := c.elapsed } := by
  unfold withCompletion at calm ⊢
  simp only [late, if_true, Option.any_none, Bool.or_false] at calm ⊢
  cases stopped : interrupted || c.exitCode == interruptedExit with
  | true =>
    rw [stopped] at calm
    cases calm
  | false => rfl

/-- Crashes and interrupts are failures. -/
theorem failed_of_withCompletion
    (abnormal : (r.withCompletion c lines interrupted).isCrash = true ∨
      (r.withCompletion c lines interrupted).interrupted = true) :
    (r.withCompletion c lines interrupted).outcome = .failed := by
  obtain ⟨-, -, -, failed | ⟨calm, noSignal, -⟩⟩ := withCompletion_spec r c lines interrupted
  · exact failed
  · rcases abnormal with crash | interrupted
    · rw [isCrash, noSignal] at crash
      cases crash
    · rw [calm] at interrupted
      cases interrupted

end TestRecord

section runs

variable {σ : Type} (w : World σ) (b : TestBed) (t : TestCase) (s : σ)

/-- Whatever test is run, a crash or an interrupt makes it fail. -/
theorem TestBed.failed_of_abnormal (abnormal : ((b.run w t).run s).1.isCrash = true ∨
    ((b.run w t).run s).1.interrupted = true) : ((b.run w t).run s).1.outcome = .failed := by
  rcases b.run_cases w t s with ⟨reason, h⟩ | ⟨f, elapsed, h⟩ | ⟨f, elapsed, c, interrupted, h⟩
  · rw [h] at abnormal
    exact absurd abnormal (by simp [TestRecord.skipped, TestRecord.isCrash])
  · rw [h] at abnormal
    exact absurd abnormal (by simp [TestRecord.ofCheck, TestRecord.isCrash])
  · rw [h] at abnormal ⊢
    exact TestRecord.failed_of_withCompletion _ _ _ abnormal

/-- What the engine is asked about a test; nothing about a query that would have to be read and is
unreadable. -/
def TestBed.request? (files : FileView) (query : Path) : Option EngineRequest :=
  if t.kind.isSyntax then some (.parsing query t.language none)
  else if t.kind = .warning then some (.parsing query t.language (some b.settings.warningLevel))
  else ((files.content? query).bind Utf8.decode?).map fun text =>
    b.evaluationRequest t query (.ofText (String.ofList text))

/-- The exit codes that the check of a test takes for good. -/
def TestBed.acceptedExits : List Int :=
  if t.kind = .warning then [b.settings.warningExitCode, 0] else [0]

/-- A test is executed: the engine can be called, and leaves `c` behind and the world in state `e`. -/
structure TestBed.Executes (c : Completion) (e : σ) : Prop where
  runnable : b.skipReason? t = none
  called : ∃ query r, t.query = some query ∧ b.request? t (w.files s) query = some r ∧
    (w.call true (b.command r)).run s = (.ok c, e)

variable {w b t s} {c : Completion} {e : σ}

theorem run_view {α : Type} (next : FileView → StateM σ α) :
    (w.view >>= next).run s = (next (w.files s)).run s := rfl

theorem run_afterEngine {r : EngineRequest} {next : Completion → StateM σ Finding}
    (called : (w.call true (b.command r)).run s = (.ok c, e)) :
    (b.afterEngine w r next).run s = (next c).run e := by
  rw [TestBed.afterEngine, StateT.run_bind, called]
  rfl

/-- Without success, every check comes down to the exit code. -/
theorem check_of_unsuccessful {query : Path} {r : EngineRequest}
    (requested : b.request? t (w.files s) query = some r)
    (called : (w.call true (b.command r)).run s = (.ok c, e)) (unsuccessful : c.succeeded = false) :
    (b.check w t query).run s = (.ofExit c (b.acceptedExits t) b.settings.timeout, e) := by
  unfold TestBed.request? at requested
  unfold TestBed.check TestBed.acceptedExits
  by_cases isSyntax : t.kind.isSyntax = true
  · have notWarning : t.kind ≠ .warning := by
      intro isWarning
      rw [isWarning] at isSyntax
      cases isSyntax
    rw [if_pos isSyntax] at requested ⊢
    obtain rfl := Option.some.inj requested
    rw [if_neg notWarning]
    exact run_afterEngine called
  · rw [if_neg isSyntax] at requested ⊢
    by_cases isWarning : t.kind = .warning
    · rw [if_pos isWarning] at requested ⊢
      obtain rfl := Option.some.inj requested
      rw [if_pos isWarning]
      exact run_afterEngine called
    · rw [if_neg isWarning] at requested ⊢
      rw [if_neg isWarning]
      obtain ⟨text, readable, rfl⟩ := Option.map_eq_some_iff.mp requested
      have judged : (TestBed.judgeEvaluation w b t (.ofText (String.ofList text)) c).run e =
          (.ofExit c [0] b.settings.timeout, e) := by
        rw [TestBed.judgeEvaluation, unsuccessful]
        rfl
      rw [TestBed.checkEvaluation, run_view, readable]
      exact (run_afterEngine called).trans judged

/-- Without success, the record is made from the exit code and what the engine left behind. -/
theorem TestBed.Executes.run_of_unsuccessful (h : b.Executes w t s c e)
    (unsuccessful : c.succeeded = false) :
    ∃ elapsed, ((b.run w t).run s).1 =
      (TestRecord.ofCheck t (.ofExit c (b.acceptedExits t) b.settings.timeout) elapsed).withCompletion c
        b.settings.outputLines (c.interrupted || (w.isInterrupted.run e).1) := by
  obtain ⟨query, r, named, requested, called⟩ := h.called
  have checked := check_of_unsuccessful requested called unsuccessful
  have left : (Finding.ofExit c (b.acceptedExits t) b.settings.timeout).completion = some c := by
    unfold Finding.ofExit
    split
    · rfl
    · split
      · rfl
      · rfl
  refine ⟨w.time e - w.time s, ?_⟩
  rw [run_of_query w b h.runnable named checked, TestBed.record_run, left]

/-- The record of an engine that was ended by a signal. -/
theorem TestBed.Executes.run_of_signal (h : b.Executes w t s c e) (inTime : c.timedOut = false)
    {signal : Signal} (told : Signal.ofExitCode? c.exitCode = some signal) :
    ((b.run w t).run s).1 =
      let interrupted := c.interrupted || (w.isInterrupted.run e).1 || signal.isInterrupt
      { test := t.uri, name := t.name, outcome := .failed, exitCode := some c.exitCode
        signal := some signal, timedOut := false, interrupted, output := c.tail b.settings.outputLines
        detail := if interrupted then "interrupted" else s!"engine killed by {signal.text}"
        elapsed := c.elapsed } := by
  have unsuccessful : c.succeeded = false := by
    rw [← Bool.not_eq_true, Completion.succeeded_iff]
    rintro ⟨_, exit⟩
    rw [exit] at told
    cases told
  obtain ⟨elapsed, run⟩ := h.run_of_unsuccessful unsuccessful
  rw [run, TestRecord.withCompletion_of_signal _ _ _ inTime told]
  rfl

/-- The record of an engine that was out of time. -/
theorem TestBed.Executes.run_of_timedOut (h : b.Executes w t s c e) (late : c.timedOut = true) :
    ((b.run w t).run s).1.timedOut = true ∧ (((b.run w t).run s).1.interrupted = false →
      ((b.run w t).run s).1.signal = none ∧ ((b.run w t).run s).1.isCrash = false ∧
      ((b.run w t).run s).1.outcome = .judge t.expected (some .failed)) := by
  have unsuccessful : c.succeeded = false := by
    rw [← Bool.not_eq_true, Completion.succeeded_iff]
    rintro ⟨free, _⟩
    rw [free.inTime] at late
    cases late
  obtain ⟨elapsed, run⟩ := h.run_of_unsuccessful unsuccessful
  have failed : (Finding.ofExit c (b.acceptedExits t) b.settings.timeout).verdict = .failed := by
    rw [Finding.ofExit, if_pos late]
    rfl
  rw [run]
  constructor
  · obtain ⟨-, -, timedOut, -⟩ := TestRecord.withCompletion_spec
      (.ofCheck t (.ofExit c (b.acceptedExits t) b.settings.timeout) elapsed) c b.settings.outputLines
      (c.interrupted || (w.isInterrupted.run e).1)
    exact timedOut.trans late
  · intro calm
    rw [TestRecord.withCompletion_of_timedOut _ _ _ late calm]
    exact ⟨rfl, rfl, congrArg (fun v => Outcome.judge t.expected (some v)) failed⟩

/-- Abnormal ends fail a test, and are told alike. A crash or an interrupt is a failure. A signal is the same
in both encodings: the records of two runs that differ in nothing else differ in nothing but the exit
code. And who is out of time has no signal and has failed, as far as this is not what was expected. -/
theorem abnormal_ends_fail_alike :
    (∀ {σ : Type} (w : World σ) (b : TestBed) (t : TestCase) (s : σ), let r := ((b.run w t).run s).1
      r.isCrash = true ∨ r.interrupted = true → r.outcome = .failed) ∧
    (∀ {σ σ' : Type} (w : World σ) (w' : World σ') (b : TestBed) (t : TestCase) (s e : σ) (s' e' : σ')
      (c c' : Completion) (n : Int), 1 ≤ n → n ≤ 2147483519 → b.Executes w t s c e →
      b.Executes w' t s' c' e' → c.exitCode = -n → c'.exitCode = 128 + n → c.timedOut = false →
      c'.timedOut = false → c.stdout = c'.stdout → c.stderr = c'.stderr →
      (c.interrupted || (w.isInterrupted.run e).1) = (c'.interrupted || (w'.isInterrupted.run e').1) →
      let r := ((b.run w t).run s).1
      let r' := ((b.run w' t).run s').1
      r.signal = some ⟨n⟩ ∧ r' = { r with exitCode := some (128 + n), elapsed := c'.elapsed }) ∧
    ∀ {σ : Type} (w : World σ) (b : TestBed) (t : TestCase) (s e : σ) (c : Completion),
      b.Executes w t s c e → c.timedOut = true → let r := ((b.run w t).run s).1
      r.timedOut = true ∧ (r.interrupted = false →
        r.signal = none ∧ r.isCrash = false ∧ r.outcome = .judge t.expected (some .failed)) := by
  refine ⟨fun w b t s => b.failed_of_abnormal w t s, ?_, fun w b t s e c h late => h.run_of_timedOut late⟩
  intro σ σ' w w' b t s e s' e' c c' n positive small h h' exit exit' inTime inTime' out err flag
  have told : Signal.ofExitCode? c.exitCode = some ⟨n⟩ := by
    rw [exit]
    exact Signal.ofExitCode?_neg positive (by omega)
  have told' : Signal.ofExitCode? c'.exitCode = some ⟨n⟩ := by
    rw [exit']
    exact Signal.ofExitCode?_shell positive
  have tail : c.tail b.settings.outputLines = c'.tail b.settings.outputLines := by
    rw [Completion.tail, Completion.tail, out, err]
  rw [h.run_of_signal inTime told, h'.run_of_signal inTime' told', flag, tail, exit']
  exact ⟨rfl, rfl⟩

/-- A world in which every program leaves the same behind. -/
def worldLeaving (c : Completion) : World Unit :=
  { Manifest.fixedWorld [] with call := fun _ _ => return .ok c }

/-- A test bed that takes a segmentation fault, as shells tell of it, for a warning. -/
def faultyBed : TestBed :=
  ⟨{ Settings.standard with warningExitCode := 139 }, ⟨"/w"⟩, .inherited⟩

/-- A test that is expected to fail. -/
def doomedTest : TestCase :=
  { (default : TestCase) with name := "t", kind := .warning, query := some ⟨"q.rq"⟩, execute := true
                              expected := .fail }

theorem executes_doomedTest (c : Completion) :
    faultyBed.Executes (worldLeaving c) doomedTest () c () :=
  ⟨rfl, ⟨"q.rq"⟩, _, rfl, rfl, rfl⟩

theorem abnormal_ends_fail_alike_faults :
    (let r := ((faultyBed.run (worldLeaving ⟨"", "oops", -11, false, false, 5⟩) doomedTest).run ()).1
    let r' := ((faultyBed.run (worldLeaving ⟨"", "oops", 139, false, false, 8⟩) doomedTest).run ()).1
    r.outcome = .failed ∧ r.signal = some ⟨11⟩ ∧ r' = { r with exitCode := some 139, elapsed := 8 }) ∧
    let r := ((faultyBed.run (worldLeaving ⟨"", "", -9, true, false, 5⟩) doomedTest).run ()).1
    r.timedOut = true ∧ r.signal = none ∧ r.outcome = .judge .fail (some .failed) := by
  obtain ⟨failed, alike, late⟩ := abnormal_ends_fail_alike
  constructor
  · have same := alike _ _ faultyBed doomedTest () () () () ⟨"", "oops", -11, false, false, 5⟩
      ⟨"", "oops", 139, false, false, 8⟩ 11 (by decide) (by decide) (executes_doomedTest _)
      (executes_doomedTest _) rfl rfl rfl rfl rfl rfl rfl
    refine ⟨failed _ faultyBed doomedTest () (.inl ?_), same⟩
    rw [TestRecord.isCrash, same.1]
    rfl
  · obtain ⟨timedOut, otherwise⟩ :=
      late _ faultyBed doomedTest () () ⟨"", "", -9, true, false, 5⟩ (executes_doomedTest _) rfl
    obtain ⟨noSignal, -, outcome⟩ := otherwise (by decide)
    exact ⟨timedOut, noSignal, outcome⟩

end runs

end SparqlConformance
