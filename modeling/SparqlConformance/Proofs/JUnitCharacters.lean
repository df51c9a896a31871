import SparqlConformance.Proofs.AsciiCharacters
import SparqlConformance.Proofs.JUnitStructure
/-!
# Characters of JUnit reports

XML has no place for most control characters, and escaping markup leaves them where they are. The text of a tree
has only characters of XML exactly when its names, its attributes and its contents have; so the report of a run can
be read as XML exactly when that holds of what the run is told with: names of suites and tests, identifiers of
tests, and the messages and outputs of the tests that have a note.
-/
namespace SparqlConformance

namespace Xml

/-- The production `Char` of XML 1.0. -/
def isXmlChar : Char → Bool := Text.inRanges
  [(0x9, 0xA), (0xD, 0xD), (0x20, 0xD7FF), (0xE000, 0xFFFD), (0x10000, 0x10FFFF)]

def IsXmlText (s : List Char) : Prop := ∀ c ∈ s, isXmlChar c = true

instance (s : List Char) : Decidable (IsXmlText s) := decidable_of_iff (s.all isXmlChar = true) List.all_eq_true

/-- A reader of documents that refuses other characters. -/
def read? (s : List Char) : Option Element := if IsXmlText s then (document? s).map Prod.snd else none

theorem isXmlText_append {s t : List Char} : IsXmlText (s ++ t) ↔ IsXmlText s ∧ IsXmlText t :=
  List.forall_mem_append

theorem isXmlText_cons {c : Char} {s : List Char} :
    IsXmlText (c :: s) ↔ isXmlChar c = true ∧ IsXmlText s := List.forall_mem_cons

theorem isXmlText_flatMap {α : Type} {f : α → List Char} {as : List α} :
    IsXmlText (as.flatMap f) ↔ ∀ a ∈ as, IsXmlText (f a) := by
  simp only [IsXmlText, List.mem_flatMap]
  exact ⟨fun h a ha c hc => h c ⟨a, ha, hc⟩, fun h c ⟨a, ha, hc⟩ => h a ha c hc⟩

theorem isXmlText_escapeChar (c : Char) : IsXmlText (escapeChar c) ↔ isXmlChar c = true := by
  unfold escapeChar
  split
  case h_6 => exact List.forall_mem_singleton
  all_goals decide

/-- Escaping is about markup only. -/
theorem isXmlText_escaped (s : String) : IsXmlText (escaped s) ↔ IsXmlText s.toList := by
  rw [escaped, isXmlText_flatMap]
  exact forall₂_congr fun c _ => isXmlText_escapeChar c

theorem isXmlText_newLine (depth : Nat) : IsXmlText (newLine depth) := by
  refine isXmlText_cons.mpr ⟨by decide, fun c hc => ?_⟩
  rw [List.eq_of_mem_replicate hc]
  decide

/-- The texts that stand in a tag. -/
def Tag.texts (t : Tag) : List String := t.name :: t.attributes.flatMap fun a => [a.1, a.2]

mutual

/-- The texts that stand in a tree. -/
def Tree.texts : Tree → List String
  | .empty tag => tag.texts
  | .text tag content => tag.texts ++ [content]
  | .nested tag children => tag.texts ++ textsOf children

def textsOf : List Tree → List String
  | [] => []
  | t :: ts => t.texts ++ textsOf ts

end

theorem textsOf_eq_flatMap (ts : List Tree) : textsOf ts = ts.flatMap Tree.texts := by
  induction ts with
  | nil => rfl
  | cons t ts ih => rw [textsOf, ih, List.flatMap_cons]

theorem isXmlText_attribute (a : String × String) :
    IsXmlText (renderAttribute a) ↔ IsXmlText a.1.toList ∧ IsXmlText a.2.toList := by
  have equals : IsXmlText ['=', '"'] := by decide
  have quote : IsXmlText ['"'] := by decide
  have text : renderAttribute a = [' '] ++ a.1.toList ++ ['=', '"'] ++ escaped a.2 ++ ['"'] := by
    simp [renderAttribute]
  rw [text]
  simp only [isXmlText_append, isXmlText_escaped, equals, quote, and_true]
  exact and_congr_left' (and_iff_right (by decide))

theorem isXmlText_tag (t : Tag) : IsXmlText t.render ↔ ∀ s ∈ t.texts, IsXmlText s.toList := by
  rw [Tag.render, Tag.texts, isXmlText_append, isXmlText_flatMap, List.forall_mem_cons]
  refine and_congr_right' ?_
  simp only [isXmlText_attribute, List.mem_flatMap, List.mem_cons, List.not_mem_nil, or_false]
  constructor
  · rintro h s ⟨a, ha, rfl | rfl⟩
    · exact (h a ha).1
    · exact (h a ha).2
  · exact fun h a ha => ⟨h _ ⟨a, ha, .inl rfl⟩, h _ ⟨a, ha, .inr rfl⟩⟩

theorem isXmlText_of_isWord {name : String} (word : IsWord name) : IsXmlText name.toList := by
  intro c hc
  have letter := isAlpha_iff.mp (List.all_eq_true.mp word.2 c hc)
  simp only [isXmlChar, Text.inRanges, List.any_cons, List.any_nil, Bool.or_eq_true, Bool.and_eq_true,
    decide_eq_true_eq]
  omega

/-- Of a plain tag only the values count. -/
theorem texts_of_isPlain {t : Tag} (plain : t.IsPlain) :
    (∀ s ∈ t.texts, IsXmlText s.toList) ↔ ∀ a ∈ t.attributes, IsXmlText a.2.toList := by
  rw [← isXmlText_tag, Tag.render, isXmlText_append, isXmlText_flatMap,
    and_iff_right (isXmlText_of_isWord plain.name)]
  refine forall₂_congr fun a ha => ?_
  rw [isXmlText_attribute, and_iff_right (isXmlText_of_isWord (plain.attributes a ha))]

theorem isXmlText_opened (t : Tag) : IsXmlText (opened t) ↔ ∀ s ∈ t.texts, IsXmlText s.toList := by
  rw [opened, List.cons_append, isXmlText_cons, isXmlText_append, isXmlText_tag]
  exact ⟨fun h => h.2.1, fun h => ⟨by decide, h, by decide⟩⟩

/-- An end tag has the name of its start tag. -/
theorem isXmlText_closed {t : Tag} (h : ∀ s ∈ t.texts, IsXmlText s.toList) : IsXmlText (closed t) := by
  rw [closed, List.cons_append, List.cons_append, isXmlText_cons, isXmlText_cons, isXmlText_append]
  exact ⟨by decide, by decide, h t.name List.mem_cons_self, by decide⟩

mutual

theorem isXmlText_render (t : Tree) (depth : Nat) :
    IsXmlText (t.render depth) ↔ ∀ s ∈ t.texts, IsXmlText s.toList := by
  cases t with
  | empty tag =>
    rw [Tree.render, Tree.texts, isXmlText_append, isXmlText_append, isXmlText_cons, isXmlText_tag]
    exact ⟨fun h => h.1.2.2, fun h => ⟨⟨isXmlText_newLine depth, by decide, h⟩, by decide⟩⟩
  | text tag content =>
    rw [Tree.render, Tree.texts, isXmlText_append, isXmlText_append, isXmlText_append, isXmlText_opened,
      isXmlText_escaped, List.forall_mem_append, List.forall_mem_singleton]
    exact ⟨fun h => ⟨h.1.1.2, h.1.2⟩, fun h => ⟨⟨⟨isXmlText_newLine depth, h.1⟩, h.2⟩, isXmlText_closed h.1⟩⟩
  | nested tag children =>
    rw [Tree.render, Tree.texts, isXmlText_append, isXmlText_append, isXmlText_append, isXmlText_append,
      isXmlText_opened, isXmlText_renderAll children, List.forall_mem_append]
    exact ⟨fun h => ⟨h.1.1.1.2, h.1.1.2⟩, fun h =>
      ⟨⟨⟨⟨isXmlText_newLine depth, h.1⟩, h.2⟩, isXmlText_newLine depth⟩, isXmlText_closed h.1⟩⟩

theorem isXmlText_renderAll (ts : List Tree) (depth : Nat) :
    IsXmlText (renderAll depth ts) ↔ ∀ s ∈ textsOf ts, IsXmlText s.toList := by
  cases ts with
  | nil => exact ⟨fun _ => nofun, fun _ => nofun⟩
  | cons t ts =>
    rw [renderAll, textsOf, isXmlText_append, isXmlText_render t, isXmlText_renderAll ts, List.forall_mem_append]

end

theorem isXmlText_document (root : Tree) :
    IsXmlText (document root).toList ↔ ∀ s ∈ root.texts, IsXmlText s.toList := by
  rw [document, String.toList_ofList, isXmlText_append, isXmlText_append, isXmlText_render]
  exact ⟨fun h => h.1.2, fun h => ⟨⟨by decide, h⟩, by decide⟩⟩

end Xml

namespace JUnit

open Xml

/-- What a record tells in the report of its suite: more only where it has a note. -/
def recordTexts (r : TestRecord) : List String :=
  r.name :: r.test :: if (noteName? r.outcome).isSome then [r.detail, r.output] else []

/-- What a run is told with. -/
def reportTexts (r : RunReport) : List String :=
  r.suites.flatMap fun s => s.name :: s.records.flatMap recordTexts

theorem isXmlText_digits (n : Nat) : IsXmlText (Nat.toDigits 10 n) := by
  intro c hc
  have digit := isDigit_iff.mp (Nat.isDigit_of_mem_toDigits (by omega) (by omega) hc)
  simp only [isXmlChar, Text.inRanges, List.any_cons, List.any_nil, Bool.or_eq_true, Bool.and_eq_true,
    decide_eq_true_eq]
  omega

theorem isXmlText_number (n : Nat) : IsXmlText (toString n).toList := by
  rw [Nat.toString_eq_repr, Nat.repr_eq_ofList_toDigits, String.toList_ofList]
  exact isXmlText_digits n

theorem isXmlText_seconds (time places : Nat) : IsXmlText (secondsText time places).toList := by
  rw [secondsText, Binary64.fixed, String.toList_ofList, pointed, isXmlText_append, isXmlText_cons,
    isXmlText_append]
  refine ⟨isXmlText_digits _, by decide, fun c hc => ?_, isXmlText_digits _⟩
  rw [List.eq_of_mem_replicate hc]
  decide

theorem isXmlText_message (r : TestRecord) : IsXmlText (message r).toList ↔ IsXmlText r.detail.toList := by
  unfold message
  split
  · rename_i empty
    rw [String.isEmpty_iff.mp empty]
    refine iff_of_true ?_ nofun
    cases r.outcome <;> decide
  · exact Iff.rfl

/-- An output that is left out is empty. -/
theorem texts_note (r : TestRecord) {name : String} (word : IsWord name) :
    (∀ s ∈ (note r name).texts, IsXmlText s.toList) ↔ IsXmlText r.detail.toList ∧ IsXmlText r.output.toList := by
  have plain : (⟨name, [("message", message r)]⟩ : Tag).IsPlain := ⟨word, by simp; decide⟩
  have told := texts_of_isPlain plain
  rw [List.forall_mem_singleton, isXmlText_message] at told
  unfold note
  split
  · rename_i empty
    rw [String.isEmpty_iff.mp empty, Tree.texts, told]
    exact (and_iff_left nofun).symm
  · rw [Tree.texts, List.forall_mem_append, told, List.forall_mem_singleton]

theorem texts_testCase (suite : String) (r : TestRecord) :
    (∀ s ∈ (testCase suite r).texts, IsXmlText s.toList) ↔
      IsXmlText suite.toList ∧ ∀ s ∈ recordTexts r, IsXmlText s.toList := by
  have told := texts_of_isPlain (t := ⟨"testcase", [("name", r.name), ("classname", suite), ("id", r.test),
    ("time", secondsText r.elapsed 3)]⟩)
    (Tag.isPlain_of_words ["testcase", "name", "classname", "id", "time"] rfl (by decide))
  simp only [List.forall_mem_cons, isXmlText_seconds, List.not_mem_nil, false_implies, implies_true,
    and_true] at told
  unfold testCase recordTexts
  dsimp only
  cases hname : noteName? r.outcome with
  | none =>
    rw [Tree.texts, told, List.forall_mem_cons, List.forall_mem_cons]
    simp [and_left_comm]
  | some name =>
    rw [Tree.texts, List.forall_mem_append, told, textsOf, textsOf, List.append_nil,
      texts_note r (isWord_of_noteName? hname)]
    simp [and_left_comm, and_assoc]

theorem isXmlText_counts (c : Counts) : ∀ a ∈ countAttributes c, IsXmlText a.2.toList := by
  rw [countAttributes, List.forall_mem_cons, List.forall_mem_cons, List.forall_mem_singleton]
  exact ⟨isXmlText_number _, isXmlText_number _, isXmlText_number _⟩

theorem texts_testSuite (s : SuiteReport) : (∀ t ∈ (testSuite s).texts, IsXmlText t.toList) ↔
    ∀ t ∈ s.name :: s.records.flatMap recordTexts, IsXmlText t.toList := by
  have plain : (⟨"testsuite", ("name", s.name) :: countAttributes s.counts ++
      [("time", secondsText s.elapsed 3)]⟩ : Tag).IsPlain :=
    Tag.isPlain_of_words ["testsuite", "name", "tests", "failures", "skipped", "time"] rfl (by decide)
  have told := texts_of_isPlain plain
  rw [List.cons_append, List.forall_mem_cons, List.forall_mem_append, List.forall_mem_singleton,
    and_iff_left ⟨isXmlText_counts s.counts, isXmlText_seconds s.elapsed 3⟩] at told
  rw [testSuite, Tree.texts, List.forall_mem_append, List.cons_append, told, textsOf_eq_flatMap, List.flatMap_map,
    List.forall_mem_flatMap, List.forall_mem_cons, List.forall_mem_flatMap]
  simp only [texts_testCase]
  exact ⟨fun h => ⟨h.1, fun r hr => (h.2 r hr).2⟩, fun h => ⟨h.1, fun r hr => ⟨h.1, h.2 r hr⟩⟩⟩

theorem texts_root (r : RunReport) :
    (∀ s ∈ (root r).texts, IsXmlText s.toList) ↔ ∀ s ∈ reportTexts r, IsXmlText s.toList := by
  have plain : (⟨"testsuites", ("name", "sparqlcheck") :: countAttributes r.totals⟩ : Tag).IsPlain :=
    Tag.isPlain_of_words ["testsuites", "name", "tests", "failures", "skipped"] rfl (by decide)
  have told := (texts_of_isPlain plain).mpr
    (List.forall_mem_cons.mpr ⟨by decide, isXmlText_counts r.totals⟩)
  rw [root, Tree.texts, List.forall_mem_append, textsOf_eq_flatMap, List.flatMap_map, List.forall_mem_flatMap,
    reportTexts, List.forall_mem_flatMap, and_iff_right told]
  exact forall₂_congr fun s _ => texts_testSuite s

/-- The report of a run has only characters of XML exactly when the run is told with such characters. -/
theorem isXmlText_junit (r : RunReport) :
    IsXmlText r.junit.toList ↔ ∀ s ∈ reportTexts r, IsXmlText s.toList := by
  rw [RunReport.junit, isXmlText_document, texts_root]

/-- The markup of a report is in order, so only its characters can keep a reader from reading it. -/
theorem isSome_read?_junit (r : RunReport) :
    (read? r.junit.toList).isSome = true ↔ IsXmlText r.junit.toList := by
  rw [read?]
  split
  · rename_i text
    rw [RunReport.junit, document?_document (isPlain_root r)]
    exact iff_of_true rfl text
  · rename_i text
    exact iff_of_false nofun text

/-- A report is an XML document exactly when every text that it is told with has only characters of XML. -/
theorem junit_isXml_iff (r : RunReport) :
    ((∀ c ∈ r.junit.toList, isXmlChar c = true) ↔ ∀ s ∈ reportTexts r, ∀ c ∈ s.toList, isXmlChar c = true) ∧
    ((read? r.junit.toList).isSome = true ↔ ∀ s ∈ reportTexts r, ∀ c ∈ s.toList, isXmlChar c = true) :=
  ⟨isXmlText_junit r, (isSome_read?_junit r).trans (isXmlText_junit r)⟩

/-- A test whose engine printed in color before it failed. -/
def coloredReport : RunReport :=
  ⟨[⟨"colors", ⟨"/"⟩, none, [{ TestRecord.skipped "http://example.com/manifest#red" "red" "exit code 1" with
    outcome := .failed, output := "\x1b[31mbad query\x1b[0m" }], .tally [.failed], false, 0⟩],
    .tally [.failed], false, []⟩

/-- The character that starts the color is in the report as it was printed, and the report is no XML. -/
theorem not_isXml_of_color : (∃ c ∈ coloredReport.junit.toList, isXmlChar c = false) ∧
    read? coloredReport.junit.toList = none := by
  have foreign : ¬ IsXmlText coloredReport.junit.toList := by
    rw [isXmlText_junit]
    intro all
    exact absurd (all "\x1b[31mbad query\x1b[0m" (by decide) '\x1b' (by decide)) (by decide)
  refine ⟨?_, if_neg foreign⟩
  simpa [IsXmlText] using foreign

end JUnit

end SparqlConformance
