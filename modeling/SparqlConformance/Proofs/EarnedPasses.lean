import SparqlConformance.Tests.Execution
/-!
# Passes are earned

What stands behind the record of a test that passed, with or without being expected to. Every check calls
the engine first, and its finding is good only when the call left nothing to object to; the record then
looks once more for a signal or an interrupt. The states are those of the world: the one in which a
test starts, and those that its calls lead to.
-/
namespace SparqlConformance

/-- Whether a test passed, be it against expectations. -/
def Outcome.IsPass (o : Outcome) : Prop := o = .passed ∨ o = .uxpassed

theorem Outcome.isPass_judge_iff {e : Expectation} (executed : e ≠ .skip) (v : Verdict) :
    (Outcome.judge e (some v)).IsPass ↔ v = .passed := by
  cases e with
  | skip => exact absurd rfl executed
  | pass => cases v <;> simp [Outcome.judge, Outcome.IsPass]
  | fail => cases v <;> simp [Outcome.judge, Outcome.IsPass]
  | xfail => cases v <;> simp [Outcome.judge, Outcome.IsPass]

/-- A program that neither the clock nor a person ended. -/
structure Completion.EndedFreely (c : Completion) : Prop where
  inTime : c.timedOut = false
  undisturbed : c.interrupted = false

theorem Completion.succeeded_iff (c : Completion) :
    c.succeeded = true ↔ c.EndedFreely ∧ c.exitCode = 0 := by
  simp only [succeeded, Bool.and_eq_true, beq_iff_eq, Bool.not_eq_true']
  constructor
  · rintro ⟨⟨exit, inTime⟩, undisturbed⟩
    exact ⟨⟨inTime, undisturbed⟩, exit⟩
  · rintro ⟨⟨inTime, undisturbed⟩, exit⟩
    exact ⟨⟨exit, inTime⟩, undisturbed⟩

theorem Signal.ofExitCode?_eq_none_iff {code : Int} :
    Signal.ofExitCode? code = none ↔ 0 ≤ code ∧ code ≤ 128 := by
  unfold Signal.ofExitCode?
  split
  · simp only [reduceCtorEq, false_iff]
    omega
  · split
    · simp only [reduceCtorEq, false_iff]
      omega
    · simp only [true_iff]
      omega

namespace TestRecord

/-- What an engine left behind says nothing about which test this is, and can only make it fail. -/
theorem withCompletion_spec (r : TestRecord) (c : Completion) (lines : Nat) (interrupted : Bool) :
    let left := r.withCompletion c lines interrupted
    left.test = r.test ∧ left.name = r.name ∧ left.timedOut = c.timedOut ∧
      (left.outcome = .failed ∨
        left.interrupted = false ∧ left.signal = none ∧ left.outcome = r.outcome) := by
  unfold withCompletion
  dsimp only
  generalize (if c.timedOut then none else Signal.ofExitCode? c.exitCode) = signal
  cases interrupted || c.exitCode == interruptedExit || signal.any Signal.isInterrupt with
  | true => exact ⟨rfl, rfl, rfl, .inl rfl⟩
  | false =>
    cases signal with
    | some s => exact ⟨rfl, rfl, rfl, .inl rfl⟩
    | none => exact ⟨rfl, rfl, rfl, .inr ⟨rfl, rfl, rfl⟩⟩

/-- The outcome stays when nobody interrupted and the exit code tells of no signal. -/
theorem isPass_withCompletion_iff (r : TestRecord) {c : Completion} (inTime : c.timedOut = false)
    (lines : Nat) (interrupted : Bool) :
    (r.withCompletion c lines interrupted).outcome.IsPass ↔
      r.outcome.IsPass ∧ interrupted = false ∧ 0 ≤ c.exitCode ∧ c.exitCode ≤ 128 := by
  have failed : ¬ Outcome.failed.IsPass := by simp [Outcome.IsPass]
  unfold withCompletion
  simp only [inTime, Bool.false_eq_true, if_false]
  cases hsignal : Signal.ofExitCode? c.exitCode with
  | some signal =>
    have outside : ¬ (0 ≤ c.exitCode ∧ c.exitCode ≤ 128) := by
      rw [← Signal.ofExitCode?_eq_none_iff, hsignal]
      exact Option.some_ne_none signal
    split <;> simp [failed, outside]
  | none =>
    have inside := Signal.ofExitCode?_eq_none_iff.mp hsignal
    have ordinary : (c.exitCode == interruptedExit) = false := by
      rw [beq_eq_false_iff_ne, interruptedExit]
      omega
    cases interrupted with
    | true => simp [failed]
    | false => simp [ordinary, inside]

end TestRecord

section checks

variable {σ : Type}

/-- A check ends in a state with a good finding, about what a program left behind if it could be
called. -/
def Finds (check : StateM σ Finding) (s : σ) (left : Option Completion) (s' : σ) : Prop :=
  (check.run s).2 = s' ∧ (check.run s).1.verdict = .passed ∧ (check.run s).1.completion = left

variable {s s' : σ} {left : Option Completion}

theorem finds_pure_iff {f : Finding} :
    Finds (pure f) s left s' ↔ s = s' ∧ f.verdict = .passed ∧ f.completion = left := Iff.rfl

theorem not_finds_failure {detail : String} {c : Option Completion} :
    ¬ Finds (pure (.failure c detail)) s left s' := by
  rintro ⟨_, passed, _⟩
  cases passed

theorem finds_bind_iff {α : Type} {first : StateM σ α} {next : α → StateM σ Finding} :
    Finds (first >>= next) s left s' ↔
      ∃ a s₁, first.run s = (a, s₁) ∧ Finds (next a) s₁ left s' := by
  constructor
  · intro h
    exact ⟨(first.run s).1, (first.run s).2, rfl, h⟩
  · rintro ⟨a, s₁, hfirst, h⟩
    have run : (first >>= next).run s = (next a).run s₁ := by
      rw [StateT.run_bind, hfirst]
      rfl
    unfold Finds
    rw [run]
    exact h

theorem finds_ofExit_iff {c : Completion} {accepted : List Int} {timeout : Nat} :
    Finds (pure (.ofExit c accepted timeout)) s left s' ↔
      s = s' ∧ some c = left ∧ c.EndedFreely ∧ c.exitCode ∈ accepted := by
  rw [finds_pure_iff]
  refine and_congr_right fun _ => ?_
  unfold Finding.ofExit
  constructor
  · rintro ⟨passed, completion⟩
    split at passed
    · cases passed
    · split at passed
      · rename_i inTime exit
        rw [if_neg inTime, if_pos exit] at completion
        simp only [Bool.and_eq_true, List.contains_iff_mem, Bool.not_eq_true'] at exit
        exact ⟨completion, ⟨by simpa using inTime, exit.2⟩, exit.1⟩
      · cases passed
  · rintro ⟨rfl, ⟨inTime, undisturbed⟩, exit⟩
    simp [inTime, undisturbed, exit]

theorem finds_ofComparison_iff {c : Completion} {comparison : Comparison} :
    Finds (pure (.ofComparison c comparison)) s left s' ↔
      s = s' ∧ some c = left ∧ comparison = .same := by
  rw [finds_pure_iff]
  cases comparison with
  | same => simp [Finding.ofComparison]
  | differ explanation => simp [Finding.ofComparison, Finding.failure]

variable (w : World σ) (b : TestBed)

/-- A check that calls the engine finds something good only after a call that worked. -/
theorem finds_afterEngine_iff {r : EngineRequest} {next : Completion → StateM σ Finding} :
    Finds (b.afterEngine w r next) s left s' ↔
      ∃ c s₁, (w.call true (b.command r)).run s = (.ok c, s₁) ∧ Finds (next c) s₁ left s' := by
  unfold TestBed.afterEngine
  rw [finds_bind_iff]
  constructor
  · rintro ⟨answer, s₁, called, found⟩
    cases answer with
    | error e =>
      refine absurd found ?_
      cases e <;> exact not_finds_failure
    | ok c => exact ⟨c, s₁, called, found⟩
  · rintro ⟨c, s₁, called, found⟩
    exact ⟨.ok c, s₁, called, found⟩

theorem finds_exitCheck_iff {r : EngineRequest} {accepted : List Int} {timeout : Nat} :
    Finds (b.afterEngine w r fun c => return .ofExit c accepted timeout) s left s' ↔
      ∃ c, some c = left ∧ c.EndedFreely ∧ c.exitCode ∈ accepted ∧
        (w.call true (b.command r)).run s = (.ok c, s') := by
  rw [finds_afterEngine_iff]
  constructor
  · rintro ⟨c, s₁, called, found⟩
    obtain ⟨rfl, rfl, free, exit⟩ := finds_ofExit_iff.mp found
    exact ⟨c, rfl, free, exit, called⟩
  · rintro ⟨c, rfl, free, exit, called⟩
    exact ⟨c, s', called, finds_ofExit_iff.mpr ⟨rfl, rfl, free, exit⟩⟩

/-- The answer of the engine and the expected one are read and found to be the same, each step in the
state that the one before it ends in. -/
def Agrees (t : TestCase) (outline : QueryOutline) (c : Completion) (result : Path) (s s' : σ) :
    Prop :=
  let format := b.format t outline
  let kind := AnswerKind.ofTest outline format t.result t.cardinality
  ∃ actual s₁, (Answer.actual w b.converter c.stdout format kind outline.ordered).run s =
      (.ok actual, s₁) ∧
    ∃ expected s₂, (Answer.expected w b.converter result kind outline.ordered).run s₁ =
        (.ok expected, s₂) ∧
      (b.judge.compare w actual expected t.cardinality).run s₂ = (.same, s')

variable {t : TestCase}

theorem finds_checkAnswer_iff {outline : QueryOutline} {c : Completion} {result : Path} :
    Finds (TestBed.checkAnswer w b t outline c result) s left s' ↔
      some c = left ∧ Agrees w b t outline c result s s' := by
  unfold TestBed.checkAnswer
  rw [finds_bind_iff]
  constructor
  · rintro ⟨actual, s₁, read_actual, found⟩
    cases actual with
    | error e => exact absurd found not_finds_failure
    | ok actual =>
      obtain ⟨expected, s₂, read_expected, found⟩ := finds_bind_iff.mp found
      cases expected with
      | error e => exact absurd found not_finds_failure
      | ok expected =>
        obtain ⟨comparison, s₃, compared, found⟩ := finds_bind_iff.mp found
        obtain ⟨rfl, rfl, rfl⟩ := finds_ofComparison_iff.mp found
        exact ⟨rfl, actual, s₁, read_actual, expected, s₂, read_expected, compared⟩
  · rintro ⟨rfl, actual, s₁, read_actual, expected, s₂, read_expected, compared⟩
    refine ⟨.ok actual, s₁, read_actual, finds_bind_iff.mpr ⟨.ok expected, s₂, read_expected, ?_⟩⟩
    exact finds_bind_iff.mpr ⟨.same, s', compared, finds_ofComparison_iff.mpr ⟨rfl, rfl, rfl⟩⟩

theorem finds_judgeEvaluation_iff {outline : QueryOutline} {c : Completion} :
    Finds (TestBed.judgeEvaluation w b t outline c) s left s' ↔
      some c = left ∧ c.EndedFreely ∧ c.exitCode = 0 ∧ ∃ result, t.result = some result ∧
        (w.files s).isFile result = true ∧ Agrees w b t outline c result s s' := by
  unfold TestBed.judgeEvaluation
  constructor
  · intro found
    split at found
    · rename_i unsuccessful
      obtain ⟨_, rfl, free, exit⟩ := finds_ofExit_iff.mp found
      have successful := c.succeeded_iff.mpr ⟨free, List.mem_singleton.mp exit⟩
      rw [successful] at unsuccessful
      cases unsuccessful
    · rename_i successful
      obtain ⟨free, exit⟩ := c.succeeded_iff.mp (by simpa using successful)
      split at found
      · exact absurd found not_finds_failure
      · rename_i result declared
        obtain ⟨files, s₁, viewed, found⟩ := finds_bind_iff.mp found
        obtain ⟨rfl, rfl⟩ := Prod.mk.inj viewed
        split at found
        · rename_i present
          obtain ⟨rfl, agrees⟩ := (finds_checkAnswer_iff w b).mp found
          exact ⟨rfl, free, exit, result, declared, present, agrees⟩
        · exact absurd found not_finds_failure
  · rintro ⟨rfl, free, exit, result, declared, present, agrees⟩
    have successful := c.succeeded_iff.mpr ⟨free, exit⟩
    simp only [successful, Bool.not_true, Bool.false_eq_true, if_false, declared]
    refine finds_bind_iff.mpr ⟨w.files s, s, rfl, ?_⟩
    rw [if_pos present]
    exact (finds_checkAnswer_iff w b).mpr ⟨rfl, agrees⟩

variable {query : Path}

theorem finds_checkEvaluation_iff :
    Finds (b.checkEvaluation w t query) s left s' ↔
      ∃ c, some c = left ∧ c.EndedFreely ∧ c.exitCode = 0 ∧
        ∃ text, ((w.files s).content? query).bind Utf8.decode? = some text ∧
          ∃ s₁, (w.call true (b.command (b.evaluationRequest t query
              (.ofText (String.ofList text))))).run s = (.ok c, s₁) ∧
            ∃ result, t.result = some result ∧ (w.files s₁).isFile result = true ∧
              Agrees w b t (.ofText (String.ofList text)) c result s₁ s' := by
  unfold TestBed.checkEvaluation
  rw [finds_bind_iff]
  constructor
  · rintro ⟨files, s₁, viewed, found⟩
    obtain ⟨rfl, rfl⟩ := Prod.mk.inj viewed
    split at found
    · exact absurd found not_finds_failure
    · rename_i text readable
      obtain ⟨c, s₁, called, found⟩ := (finds_afterEngine_iff w b).mp found
      obtain ⟨rfl, free, exit, answer⟩ := (finds_judgeEvaluation_iff w b).mp found
      exact ⟨c, rfl, free, exit, text, readable, s₁, called, answer⟩
  · rintro ⟨c, rfl, free, exit, text, readable, s₁, called, answer⟩
    refine ⟨w.files s, s, rfl, ?_⟩
    rw [readable]
    refine (finds_afterEngine_iff w b).mpr ⟨c, s₁, called, ?_⟩
    exact (finds_judgeEvaluation_iff w b).mpr ⟨rfl, free, exit, answer⟩

/-- What a good finding rests on, for each way in which tests are checked. -/
inductive Evidence (t : TestCase) (query : Path) (s : σ) (c : Completion) (s' : σ) : Prop
  | accepted (checked : t.kind.isSyntax = true)
      (called : (w.call true (b.command (.parsing query t.language none))).run s = (.ok c, s'))
      (exit : c.exitCode = 0)
  | warned (checked : t.kind = .warning)
      (called : (w.call true (b.command (.parsing query t.language
        (some b.settings.warningLevel)))).run s = (.ok c, s'))
      (exit : c.exitCode = b.settings.warningExitCode ∨ c.exitCode = 0)
  | answered (checked : t.kind.isSyntax = false ∧ t.kind ≠ .warning) (text : List Char)
      (readable : ((w.files s).content? query).bind Utf8.decode? = some text) (s₁ : σ)
      (called : (w.call true (b.command (b.evaluationRequest t query
        (.ofText (String.ofList text))))).run s = (.ok c, s₁))
      (exit : c.exitCode = 0) (result : Path) (declared : t.result = some result)
      (present : (w.files s₁).isFile result = true)
      (agrees : Agrees w b t (.ofText (String.ofList text)) c result s₁ s')

/-- A check finds something good exactly when there is evidence for it. -/
theorem finds_check_iff :
    Finds (b.check w t query) s left s' ↔
      ∃ c, some c = left ∧ c.EndedFreely ∧ Evidence w b t query s c s' := by
  unfold TestBed.check
  by_cases isSyntax : t.kind.isSyntax = true
  · have notWarning : t.kind ≠ .warning := by
      intro isWarning
      rw [isWarning] at isSyntax
      cases isSyntax
    rw [if_pos isSyntax, TestBed.checkSyntax, finds_exitCheck_iff]
    refine exists_congr fun c => and_congr_right fun _ => and_congr_right fun _ => ⟨?_, ?_⟩
    · rintro ⟨exit, called⟩
      exact .accepted isSyntax called (List.mem_singleton.mp exit)
    · rintro (⟨_, called, exit⟩ | ⟨isWarning, _, _⟩ | ⟨⟨notSyntax, _⟩, _⟩)
      · exact ⟨List.mem_singleton.mpr exit, called⟩
      · exact absurd isWarning notWarning
      · rw [isSyntax] at notSyntax
        cases notSyntax
  · rw [if_neg isSyntax]
    by_cases isWarning : t.kind = .warning
    · rw [if_pos isWarning, TestBed.checkWarning, finds_exitCheck_iff]
      refine exists_congr fun c => and_congr_right fun _ => and_congr_right fun _ => ⟨?_, ?_⟩
      · rintro ⟨exit, called⟩
        exact .warned isWarning called (by simpa using exit)
      · rintro (⟨isSyntax', _, _⟩ | ⟨_, called, exit⟩ | ⟨⟨_, notWarning⟩, _⟩)
        · exact absurd isSyntax' isSyntax
        · exact ⟨by simpa using exit, called⟩
        · exact absurd isWarning notWarning
    · rw [if_neg isWarning, finds_checkEvaluation_iff]
      refine exists_congr fun c => and_congr_right fun _ => and_congr_right fun _ => ⟨?_, ?_⟩
      · rintro ⟨exit, text, readable, s₁, called, result, declared, present, agrees⟩
        exact .answered ⟨by simpa using isSyntax, isWarning⟩ text readable s₁ called exit result
          declared present agrees
      · rintro (⟨isSyntax', _, _⟩ | ⟨isWarning', _, _⟩ |
          ⟨_, text, readable, s₁, called, exit, result, declared, present, agrees⟩)
        · exact absurd isSyntax' isSyntax
        · exact absurd isWarning' isWarning
        · exact ⟨exit, text, readable, s₁, called, result, declared, present, agrees⟩

theorem TestBed.record_run (t : TestCase) (s : σ) (f : Finding) (elapsed : Nat) :
    ((b.record w t f elapsed).run s).1 = match f.completion with
      | none => .ofCheck t f elapsed
      | some c => (TestRecord.ofCheck t f elapsed).withCompletion c b.settings.outputLines
          (c.interrupted || (w.isInterrupted.run s).1) := by
  unfold TestBed.record
  dsimp only
  cases f.completion with
  | none => rfl
  | some c =>
    dsimp only
    cases c.interrupted with
    | true => rfl
    | false => rfl

theorem isPass_ofCheck_iff (executed : t.expected ≠ .skip) (f : Finding) (elapsed : Nat) :
    (TestRecord.ofCheck t f elapsed).outcome.IsPass ↔ f.verdict = .passed :=
  Outcome.isPass_judge_iff executed f.verdict

theorem passed_of_isPass_record (executed : t.expected ≠ .skip) {f : Finding} {elapsed : Nat}
    (pass : ((b.record w t f elapsed).run s).1.outcome.IsPass) : f.verdict = .passed := by
  have kept : ∀ c interrupted, ((TestRecord.ofCheck t f elapsed).withCompletion c
      b.settings.outputLines interrupted).outcome.IsPass →
      (TestRecord.ofCheck t f elapsed).outcome.IsPass := by
    intro c interrupted pass
    obtain ⟨-, -, -, failed | ⟨-, -, same⟩⟩ := TestRecord.withCompletion_spec (.ofCheck t f elapsed) c
      b.settings.outputLines interrupted
    · rw [failed] at pass
      simp [Outcome.IsPass] at pass
    · rwa [← same]
  rw [← isPass_ofCheck_iff executed f elapsed]
  rw [TestBed.record_run] at pass
  cases completion : f.completion with
  | none => rwa [completion] at pass
  | some c =>
    rw [completion] at pass
    exact kept c _ pass

/-- The record of a good finding is a pass when no signal and no interrupt ended the engine. -/
theorem isPass_record_iff (executed : t.expected ≠ .skip) {f : Finding} {elapsed : Nat}
    {c : Completion} (good : f.verdict = .passed) (completion : f.completion = some c)
    (free : c.EndedFreely) :
    ((b.record w t f elapsed).run s).1.outcome.IsPass ↔
      (w.isInterrupted.run s).1 = false ∧ 0 ≤ c.exitCode ∧ c.exitCode ≤ 128 := by
  have run : ((b.record w t f elapsed).run s).1 = (TestRecord.ofCheck t f elapsed).withCompletion c
      b.settings.outputLines (w.isInterrupted.run s).1 := by
    rw [TestBed.record_run, completion]
    dsimp only
    rw [free.undisturbed, Bool.false_or]
  rw [run, TestRecord.isPass_withCompletion_iff _ free.inTime, isPass_ofCheck_iff executed]
  simp only [good, true_and]

theorem executed_of_skipReason? (runnable : b.skipReason? t = none) : t.expected ≠ .skip := by
  intro skipped
  unfold TestBed.skipReason? at runnable
  split at runnable
  · cases runnable
  · simp [skipped] at runnable

/-- A test that is run gets the record of its check. -/
theorem run_of_query (runnable : b.skipReason? t = none) (named : t.query = some query) {f : Finding}
    (checked : (b.check w t query).run s = (f, s')) :
    ((b.run w t).run s).1 = ((b.record w t f (w.time s' - w.time s)).run s').1 := by
  have now : ∀ s, w.now.run s = (w.time s, s) := fun _ => rfl
  unfold TestBed.run
  simp only [runnable, named, StateT.run_bind, now]
  show ((b.record w t ((b.check w t query).run s).1 _).run ((b.check w t query).run s).2).1 = _
  rw [checked]

/-- The record of a run says why there was none, what was found without the engine, or what the engine
left behind. -/
theorem TestBed.run_cases (t : TestCase) (s : σ) :
    (∃ reason, ((b.run w t).run s).1 = .skipped t.uri t.name reason) ∨
      (∃ f elapsed, ((b.run w t).run s).1 = .ofCheck t f elapsed) ∨
      ∃ f elapsed c interrupted, ((b.run w t).run s).1 =
        (TestRecord.ofCheck t f elapsed).withCompletion c b.settings.outputLines interrupted := by
  cases runnable : b.skipReason? t with
  | some reason =>
    refine .inl ⟨reason, ?_⟩
    rw [TestBed.run, runnable]
    rfl
  | none =>
    cases named : t.query with
    | none =>
      refine .inl ⟨"no query", ?_⟩
      rw [TestBed.run, runnable, named]
      rfl
    | some query =>
      right
      obtain ⟨f, s', checked⟩ : ∃ f s', (b.check w t query).run s = (f, s') := ⟨_, _, rfl⟩
      rw [run_of_query w b runnable named checked, TestBed.record_run]
      cases f.completion with
      | none => exact .inl ⟨_, _, rfl⟩
      | some c => exact .inr ⟨_, _, c, _, rfl⟩

theorem not_isPass_skipped (test name detail : String) :
    ¬ (TestRecord.skipped test name detail).outcome.IsPass := by
  simp [TestRecord.skipped, Outcome.IsPass]

/-- A test that passes was to be run, and has a query. -/
theorem runnable_of_isPass (pass : ((b.run w t).run s).1.outcome.IsPass) :
    b.skipReason? t = none ∧ ∃ query, t.query = some query := by
  unfold TestBed.run at pass
  split at pass
  · exact absurd pass (not_isPass_skipped _ _ _)
  · exact absurd pass (not_isPass_skipped _ _ _)
  · rename_i query runnable named
    exact ⟨runnable, query, named⟩

/-- A pass is earned: a test passes exactly when it was to be run, the engine was called and ended on its
own with an ordinary exit code that the kind of the test accepts, the answers of tests that have one were
read and agree, and nobody has interrupted the run. -/
theorem isPass_run_iff (w : World σ) (b : TestBed) (t : TestCase) (s : σ) :
    ((b.run w t).run s).1.outcome.IsPass ↔ b.skipReason? t = none ∧
      ∃ query c s', t.query = some query ∧ Evidence w b t query s c s' ∧ c.EndedFreely ∧
        0 ≤ c.exitCode ∧ c.exitCode ≤ 128 ∧ (w.isInterrupted.run s').1 = false := by
  constructor
  · intro pass
    obtain ⟨runnable, query, named⟩ := runnable_of_isPass w b pass
    have executed := executed_of_skipReason? b runnable
    obtain ⟨f, s', checked⟩ : ∃ f s', (b.check w t query).run s = (f, s') := ⟨_, _, rfl⟩
    rw [run_of_query w b runnable named checked] at pass
    have good := passed_of_isPass_record w b executed pass
    have found : Finds (b.check w t query) s f.completion s' := by
      rw [Finds, checked]
      exact ⟨rfl, good, rfl⟩
    obtain ⟨c, completion, free, evidence⟩ := (finds_check_iff w b).mp found
    obtain ⟨calm, nonneg, small⟩ := (isPass_record_iff w b executed good completion.symm free).mp pass
    exact ⟨runnable, query, c, s', named, evidence, free, nonneg, small, calm⟩
  · rintro ⟨runnable, query, c, s', named, evidence, free, nonneg, small, calm⟩
    have executed := executed_of_skipReason? b runnable
    obtain ⟨ended, good, completion⟩ := (finds_check_iff w b).mpr ⟨c, rfl, free, evidence⟩
    have checked : (b.check w t query).run s = (((b.check w t query).run s).1, s') :=
      Prod.ext rfl ended
    rw [run_of_query w b runnable named checked]
    exact (isPass_record_iff w b executed good completion free).mpr ⟨calm, nonneg, small⟩

end checks

end SparqlConformance
