import SparqlConformance.Answers.Judgement
import SparqlConformance.Proofs.ManifestLoading
/-!
# The verdicts of tools

What tools do to a comparison, told apart from how they are asked. A tool counts only if it came to its end
in time, and then by its exit code. The judge keeps to this for the diff tool, but a comparison tool that
was out of time and yet ended with 0 is believed.
-/
namespace SparqlConformance.Judge

/-- What became of a call, if there was one. -/
abbrev ToolAnswer := Option (Except LaunchError Completion)

/-- What a tool left behind that came to its end in time and with one of some exit codes. -/
def ended? (exits : List Int) : ToolAnswer → Option Completion
  | some (.ok c) => if c.timedOut = false ∧ c.exitCode ∈ exits then some c else none
  | _ => none

/-- A tool was out of time, and ended with 0 all the same. -/
def EndedLate (answer : ToolAnswer) : Prop :=
  ∃ c, answer = some (.ok c) ∧ c.exitCode = 0 ∧ c.timedOut = true

/-- Answers that tools may be asked about. -/
def Comparable (actual expected : Answer) (cardinality : Cardinality) : Prop :=
  actual.kind = expected.kind ∧ ¬ (cardinality = .lax ∧ actual.kind = .solutions)

instance (actual expected : Answer) (cardinality : Cardinality) :
    Decidable (Comparable actual expected cardinality) :=
  inferInstanceAs (Decidable (_ ∧ ¬ (_ ∧ _)))

/-- The verdict on two answers when the comparison tool and the diff tool answer in this way: a tool that
did not end as it should has no say. -/
def ruling (actual expected : Answer) (cardinality : Cardinality) (compared shown : ToolAnswer) :
    Comparison :=
  match actual.compare expected cardinality with
  | .same => .same
  | .differ explanation =>
    if Comparable actual expected cardinality then
      if (ended? [0] compared).isSome then .same
      else .differ (((ended? [0, 1] shown).map Completion.stdout).getD explanation)
    else .differ explanation

/-- The comparison tool was out of time when it took different answers for the same. -/
def Overruled (actual expected : Answer) (cardinality : Cardinality) (compared : ToolAnswer) : Prop :=
  actual.compare expected cardinality ≠ .same ∧ Comparable actual expected cardinality ∧
    EndedLate compared

theorem any_accepts_iff (answer : ToolAnswer) :
    answer.any accepts = true ↔ (ended? [0] answer).isSome = true ∨ EndedLate answer := by
  match answer with
  | none => simp [ended?, EndedLate]
  | some (.error e) => simp [ended?, EndedLate, accepts]
  | some (.ok c) =>
    cases late : c.timedOut with
    | true => simp [ended?, EndedLate, accepts, late]
    | false =>
      by_cases exit : c.exitCode = 0
      · simp [ended?, accepts, late, exit]
      · simp [ended?, EndedLate, accepts, late, exit]

theorem bind_explanation? (answer : ToolAnswer) :
    answer.bind explanation? = (ended? [0, 1] answer).map Completion.stdout := by
  match answer with
  | none => rfl
  | some (.error e) => rfl
  | some (.ok c) =>
    cases late : c.timedOut with
    | true => simp [ended?, explanation?, late]
    | false =>
      by_cases exit : c.exitCode = 0 ∨ c.exitCode = 1
      · simp [ended?, explanation?, late, exit]
      · simp [ended?, explanation?, late, exit]

/-- What the judge makes of the answers of its tools to different texts. -/
def believed (explanation : String) (answers : ToolAnswer × ToolAnswer) : Comparison :=
  if answers.1.any accepts then .same
  else .differ ((answers.2.bind explanation?).getD explanation)

theorem believed_of_endedLate (explanation : String) {compared : ToolAnswer} (shown : ToolAnswer)
    (late : EndedLate compared) : believed explanation (compared, shown) = .same := by
  rw [believed, if_pos ((any_accepts_iff compared).mpr (.inr late))]

theorem believed_of_not_endedLate (explanation : String) {compared : ToolAnswer} (shown : ToolAnswer)
    (inTime : ¬ EndedLate compared) :
    believed explanation (compared, shown) = if (ended? [0] compared).isSome then .same
      else .differ (((ended? [0, 1] shown).map Completion.stdout).getD explanation) := by
  have accepted : compared.any accepts = (ended? [0] compared).isSome := by
    rw [Bool.eq_iff_iff, any_accepts_iff, or_iff_left inTime]
  rw [believed, accepted, bind_explanation?]

theorem not_isSome_of_endedLate {exits : List Int} {answer : ToolAnswer} (late : EndedLate answer) :
    (ended? exits answer).isSome = false := by
  obtain ⟨c, rfl, -, late⟩ := late
  simp [ended?, late]

theorem consults_iff {j : Judge} {actual expected : Answer} {cardinality : Cardinality} :
    j.consults actual expected cardinality = true ↔ Comparable actual expected cardinality ∧
      (j.compareTool.isSome = true ∨ j.diffTool.isSome = true) := by
  rw [consults, Comparable, Bool.and_eq_true, Bool.and_eq_true, Bool.or_eq_true, beq_iff_eq,
    Bool.not_eq_true', ← Bool.not_eq_true, Bool.and_eq_true, beq_iff_eq, beq_iff_eq]

section runs

variable {σ : Type} (w : World σ) (j : Judge)

/-- What the tools do, first the one and then the other, when they are to be given two texts. A tool that
does not exist, or can be given no files, does nothing. -/
def toolAnswers (texts : String × String) : StateM σ (ToolAnswer × ToolAnswer) := do
  match ← w.createTemporary none expectedFile (Utf8.encode texts.1.toList) with
  | .error _ => return (none, none)
  | .ok expected =>
    match ← w.createTemporary none actualFile (Utf8.encode texts.2.toList) with
    | .error _ => return (none, none)
    | .ok actual =>
      let compared ← callTool w j expected actual j.compareTool
      let shown ← callTool w j expected actual j.diffTool
      return (compared, shown)

theorem consult_run (explanation : String) (expected actual : Path) (s : σ) :
    let compared := (callTool w j expected actual j.compareTool).run s
    let shown := (callTool w j expected actual j.diffTool).run compared.2
    ((consult w j explanation expected actual).run s).1 =
      believed explanation (compared.1, shown.1) := by
  dsimp only
  rw [consult, StateT.run_bind]
  obtain ⟨compared, s', h⟩ : ∃ a s', (callTool w j expected actual j.compareTool).run s = (a, s') :=
    ⟨_, _, rfl⟩
  rw [h]
  dsimp only [bind, StateT.bind, believed]
  cases compared.any accepts with
  | true => rfl
  | false => rfl

theorem consultWithFiles_run (explanation : String) (texts : String × String) (s : σ) :
    ((consultWithFiles w j explanation texts).run s).1 =
      believed explanation ((toolAnswers w j texts).run s).1 := by
  rw [consultWithFiles, toolAnswers, StateT.run_bind, StateT.run_bind]
  obtain ⟨_ | expected, s₁⟩ :=
    (w.createTemporary none expectedFile (Utf8.encode texts.1.toList)).run s
  · rfl
  · dsimp only [bind, StateT.bind, StateT.run]
    obtain ⟨_ | actual, s₂⟩ := w.createTemporary none actualFile (Utf8.encode texts.2.toList) s₁
    · rfl
    · exact consult_run w j explanation expected actual s₂

variable {w j} in
/-- Tools that do not exist do nothing. -/
theorem toolAnswers_of_none (texts : String × String) (s : σ) (noCompareTool : j.compareTool = none)
    (noDiffTool : j.diffTool = none) : ((toolAnswers w j texts).run s).1 = (none, none) := by
  rw [toolAnswers, StateT.run_bind, noCompareTool, noDiffTool]
  obtain ⟨_ | expected, s₁⟩ :=
    (w.createTemporary none expectedFile (Utf8.encode texts.1.toList)).run s
  · rfl
  · dsimp only [bind, StateT.bind, StateT.run]
    obtain ⟨_ | actual, s₂⟩ := w.createTemporary none actualFile (Utf8.encode texts.2.toList) s₁
    · rfl
    · rfl

/-- The judge believes its tools about different texts of comparable answers, and nothing else. -/
theorem compare_run (actual expected : Answer) (cardinality : Cardinality) (s : σ) :
    ((j.compare w actual expected cardinality).run s).1 =
      match actual.compare expected cardinality with
      | .same => .same
      | .differ explanation =>
        if Comparable actual expected cardinality then
          believed explanation ((toolAnswers w j (texts actual expected)).run s).1
        else .differ explanation := by
  unfold compare
  cases actual.compare expected cardinality with
  | same => rfl
  | differ explanation =>
    dsimp only
    by_cases comparable : Comparable actual expected cardinality
    · rw [if_pos comparable]
      by_cases tools : j.compareTool.isSome = true ∨ j.diffTool.isSome = true
      · rw [consults_iff.mpr ⟨comparable, tools⟩]
        exact consultWithFiles_run w j explanation _ s
      · have unasked : j.consults actual expected cardinality = false := by
          rw [← Bool.not_eq_true, consults_iff]
          exact fun asked => tools asked.2
        obtain ⟨noCompareTool, noDiffTool⟩ := not_or.mp tools
        rw [Option.not_isSome_iff_eq_none] at noCompareTool noDiffTool
        rw [unasked, toolAnswers_of_none _ s noCompareTool noDiffTool]
        rfl
    · have unasked : j.consults actual expected cardinality = false := by
        rw [← Bool.not_eq_true, consults_iff]
        exact fun asked => comparable asked.1
      rw [if_neg comparable, unasked]
      rfl

/-- The verdict is the ruling on what the tools do, unless a comparison tool that is out of time ends
with 0: then different answers count as the same. -/
theorem compare_eq_ruling_iff (actual expected : Answer) (cardinality : Cardinality) (s : σ) :
    let answers := ((toolAnswers w j (texts actual expected)).run s).1
    let verdict := ((j.compare w actual expected cardinality).run s).1
    (verdict = ruling actual expected cardinality answers.1 answers.2 ↔
      ¬ Overruled actual expected cardinality answers.1) ∧
    (Overruled actual expected cardinality answers.1 → verdict = .same) := by
  dsimp only
  rw [compare_run]
  generalize (toolAnswers w j (texts actual expected)).run s = answers
  obtain ⟨⟨compared, shown⟩, s'⟩ := answers
  dsimp only [ruling, Overruled]
  cases lines : actual.compare expected cardinality with
  | same => simp
  | differ explanation =>
    dsimp only
    by_cases comparable : Comparable actual expected cardinality
    · rw [if_pos comparable, if_pos comparable]
      by_cases late : EndedLate compared
      · rw [believed_of_endedLate explanation shown late, not_isSome_of_endedLate late]
        simp [comparable, late]
      · rw [believed_of_not_endedLate explanation shown late]
        simp [late]
    · simp [comparable]

end runs

/-- A world in which files can be created, and every program is out of time and ends with 0. -/
def lateWorld : World Unit :=
  { Manifest.fixedWorld [] with
    call := fun _ _ => return .ok ⟨"", "", 0, true, false, 300000⟩
    createTemporary := fun _ name _ => return .ok ⟨name.start ++ name.finish⟩ }

def askingJudge : Judge := ⟨some ⟨"cmp.sh", []⟩, none, .inherited, 300⟩

/-- True counts as false because a tool ended late. -/
theorem same_of_late_tool :
    let answers := ((toolAnswers lateWorld askingJudge (texts (.truth false) (.truth true))).run ()).1
    answers = (some (.ok ⟨"", "", 0, true, false, 300000⟩), none) ∧
    ruling (.truth false) (.truth true) .strict answers.1 answers.2 =
      .differ "expected true, got false" ∧
    ((askingJudge.compare lateWorld (.truth false) (.truth true) .strict).run ()).1 = .same := by
  have answers : ((toolAnswers lateWorld askingJudge (texts (.truth false) (.truth true))).run ()).1 =
      (some (.ok ⟨"", "", 0, true, false, 300000⟩), none) := rfl
  dsimp only
  rw [answers]
  exact ⟨rfl, by decide, rfl⟩

end SparqlConformance.Judge
