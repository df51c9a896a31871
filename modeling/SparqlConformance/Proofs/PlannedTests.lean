import Mathlib.Data.List.Forall2
import SparqlConformance.Proofs.FileNames
import SparqlConformance.Proofs.FileReferences
import SparqlConformance.Proofs.PlannedTriples
/-!
# The tests of a plan

A directory with plain paths is planned without loss: its URL is an IRI, the kind of its tests has an IRI
that is read as that kind, and every query file becomes a test that refers to the query, to the data and to
the result.
-/
namespace SparqlConformance

open Manifest (Refers)

namespace TestKind

theorem isIri_of_known {k : TestKind} (h : k.isUnknown = false) : isIri k.iri = true := by
  obtain ⟨-, -, -, manifest, -, extra, plan⟩ := Vocab.predicates_spec
  cases k with
  | unknown iri => cases h
  | badSyntax => exact Vocab.isAbsolute_name extra (by decide)
  | syntaxOnly => exact Vocab.isAbsolute_name extra (by decide)
  | knownFailure => exact Vocab.isAbsolute_name plan (by decide)
  | warning => exact Vocab.isAbsolute_name plan (by decide)
  | _ => exact Vocab.isAbsolute_name manifest (by decide)

theorem iri_ofIri (iri : String) : (ofIri iri).iri = iri := by
  unfold ofIri
  cases found : known.find? fun k => k.iri == iri with
  | none => rfl
  | some k =>
    have same := List.find?_some found
    exact beq_iff_eq.mp same

/-- The kind of a suite is a known one or the fallback. -/
theorem guess_cases (kind : Option TestKind) (suite : String) (fallback : TestKind) :
    (guess kind suite fallback).isUnknown = false ∨ guess kind suite fallback = fallback := by
  unfold guess
  split
  · rename_i k found
    have known := (Option.filter_eq_some_iff.mp found).2
    exact .inl (by simpa using known)
  · dsimp only
    split_ifs
    · exact .inl rfl
    · exact .inl rfl
    · exact .inl rfl
    · exact .inl rfl
    · exact .inr rfl

theorem isIri_guess (kind : Option TestKind) (suite : String) {fallback : TestKind}
    (named : isIri fallback.iri = true) : isIri (guess kind suite fallback).iri = true := by
  rcases guess_cases kind suite fallback with known | same
  · exact isIri_of_known known
  · rwa [same]

end TestKind

section Files

variable {p place : Path}

theorem Path.isPlain_join (absolute : place.isAbsolute = true) (plain : place.IsPlain) (hp : p.IsPlain) :
    (place.join p).IsPlain := by
  cases start : p.isAbsolute with
  | true => rwa [join_of_isAbsolute start]
  | false =>
    unfold IsPlain
    rw [steps_join absolute start]
    intro s hs
    rcases List.mem_append.mp hs with h | h
    · exact plain s h
    · exact hp s h

end Files

section Places

/-- The URL of a place in a directory goes on from the URL of the directory. -/
theorem Url.withSlash_append {steps : List (List Char)} (names : ∀ s ∈ steps, IsFileName s)
    (scheme name : List Char) :
    withSlash (scheme ++ pathOf steps) ++ name = scheme ++ pathOf (steps ++ [name]) := by
  have next : pathOf (steps ++ [name]) = steps.flatMap ('/' :: ·) ++ '/' :: name := by
    unfold pathOf
    simp
  rcases List.eq_nil_or_concat steps with rfl | ⟨front, s, rfl⟩
  · have ended : (scheme ++ pathOf []).getLast? = some '/' := List.getLast?_concat
    rw [withSlash, ended, if_pos (by decide), next, List.append_assoc]
    rfl
  · have file := names s (by simp)
    obtain ⟨t, c, rfl⟩ : ∃ t c, s = t ++ [c] := by
      rcases List.eq_nil_or_concat s with rfl | h
      · exact absurd file.busy (by decide)
      · simpa using h
    have inner : c ≠ '/' := ne_of_isFileChar (file.chars c (by simp)) (by decide)
    have text : scheme ++ pathOf (front.concat (t ++ [c])) =
        scheme ++ (front.flatMap ('/' :: ·) ++ '/' :: t) ++ [c] := by
      unfold pathOf
      simp
    have ended : ((some c : Option Char) == some '/') = false := by simpa using inner
    rw [next, withSlash, text, List.getLast?_concat, ended, if_neg Bool.false_ne_true]
    simp

theorem Url.ofDirectory?_append {directory : Path} (absolute : directory.isAbsolute = true)
    (plain : directory.IsPlain) (name : String) : ∃ url, ofDirectory? directory = some url ∧
      url ++ name = String.ofList (along (directory.steps ++ [name.toList])) := by
  refine ⟨String.ofList (withSlash (along directory.steps)), ?_, ?_⟩
  · rw [ofDirectory?, ofFilePath?_of_isPlain absolute plain, Option.map_some, String.toList_ofList]
  · unfold along
    rw [← withSlash_append plain, String.ofList_append, String.ofList_toList]

/-- The plan of a directory with a plain path has an IRI. -/
theorem Plan.exists_node {directory : Path} (absolute : directory.isAbsolute = true)
    (plain : directory.IsPlain) : ∃ url steps, Url.ofDirectory? directory = some url ∧
      url ++ "manifest" = String.ofList (Url.along steps) ∧ (∀ s ∈ steps, IsFileName s) ∧
      isIri (url ++ "manifest") = true := by
  obtain ⟨url, hurl, hnode⟩ := Url.ofDirectory?_append absolute plain "manifest"
  have names : ∀ s ∈ directory.steps ++ ["manifest".toList], IsFileName s := by
    intro s hs
    rcases List.mem_append.mp hs with h | h
    · exact plain s h
    · rw [List.mem_singleton.mp h]
      decide
  refine ⟨url, _, hurl, hnode, names, ?_⟩
  rw [hnode, isIri, String.toList_ofList]
  exact Url.isAbsolute_along names

end Places

section Lists

variable {α β : Type}

/-- Where a function gives something for each member, nothing is left out. -/
theorem forall₂_filterMap {f : α → Option β} {P : α → β → Prop} {as : List α}
    (h : ∀ a ∈ as, ∃ b, f a = some b ∧ P a b) : List.Forall₂ P as (as.filterMap f) := by
  induction as with
  | nil => exact .nil
  | cons a as ih =>
    obtain ⟨b, hb, hP⟩ := h a List.mem_cons_self
    rw [List.filterMap_cons_some hb]
    exact .cons hP (ih fun c hc => h c (List.mem_cons_of_mem _ hc))

theorem exists_left_of_mem {R : α → β → Prop} {as : List α} {bs : List β} (h : List.Forall₂ R as bs) :
    ∀ b ∈ bs, ∃ a ∈ as, R a b := by
  induction h with
  | nil => exact fun b hb => absurd hb List.not_mem_nil
  | cons here _ ih =>
    intro b hb
    rcases List.mem_cons.mp hb with rfl | hb
    · exact ⟨_, List.mem_cons_self, here⟩
    · obtain ⟨a, ha, related⟩ := ih b hb
      exact ⟨a, List.mem_cons_of_mem _ ha, related⟩

end Lists

namespace PlanRequest

/-- The default graph of the tests of a plan: files given from a directory. Tests that only look at the
query have none. -/
def dataFiles (r : PlanRequest) (directory : Path) : List Path :=
  if Plan.isBare r.testKind then [] else r.data.map directory.join

theorem plan_eq_ok {r : PlanRequest} {files : FileView} {place directory : Path} {url : String}
    {entries : List Path} (found : files.canonical? place = some directory)
    (hurl : Url.ofDirectory? directory = some url) (listed : files.entries? directory = some entries) :
    r.plan files place = .ok (Plan.triples r (.iri (url ++ "manifest"))
      ((Plan.queries files entries).filterMap (Plan.test? files directory (url ++ "manifest" ++ "#") r))) := by
  unfold plan
  rw [found]
  dsimp only
  rw [hurl, listed]

/-- The file that the answer to a query is compared with, if any. -/
def resultFile? (r : PlanRequest) (files : FileView) (query : Path) : Option Path :=
  if Plan.isBare r.testKind then none else Plan.result? files query

end PlanRequest

/-- A planned test that asks the query of a file and is called like it. -/
structure PlannedTest.Asks (base : String) (file : Path) (t : PlannedTest) : Prop where
  name : file.fileStem? = some t.name
  id : t.id = base ++ t.name
  query : Refers t.query file
  iris : t.HasIris

/-- The planned test of a query file: it refers to the query, to the data and to the result. -/
structure PlannedTest.IsFor (r : PlanRequest) (files : FileView) (directory : Path) (base : String)
    (file : Path) (t : PlannedTest) : Prop where
  name : file.fileStem? = some t.name
  id : t.id = base ++ t.name
  absolute : isIri t.id = true
  query : Refers t.query file
  data : List.Forall₂ (fun d iri => Refers iri d) (r.dataFiles directory) t.data
  result : Option.Rel (fun p iri => Refers iri p) (r.resultFile? files file) t.result

namespace Plan

/-- The files of a directory that become tests. -/
def IsQueryFile (files : FileView) (p : Path) : Prop :=
  files.isFile p = true ∧ (p.extension? = some "rq" ∨ p.extension? = some "ru")

theorem isQuery_iff {files : FileView} {p : Path} : isQuery files p = true ↔ IsQueryFile files p := by
  rw [isQuery, Bool.and_eq_true, Option.any_eq_true, IsQueryFile]
  refine and_congr_right fun _ => ?_
  simp only [queryExtensions, List.contains_cons, List.contains_nil, Bool.or_false, Bool.or_eq_true, beq_iff_eq]
  constructor
  · rintro ⟨e, found, rfl | rfl⟩
    · exact .inl found
    · exact .inr found
  · rintro (found | found)
    · exact ⟨_, found, .inl rfl⟩
    · exact ⟨_, found, .inr rfl⟩

instance (files : FileView) (p : Path) : Decidable (IsQueryFile files p) :=
  inferInstanceAs (Decidable (_ ∧ _))

theorem isIri_of_fileIri? {p : Path} {iri : String} (h : fileIri? p = some iri) : isIri iri = true :=
  (Option.filter_eq_some_iff.mp h).2

/-- Every query file with a plain path becomes a test, whatever the data and the result are called. -/
theorem exists_asking {files : FileView} {query : Path} (r : PlanRequest) (directory : Path)
    {steps : List (List Char)} (names : ∀ s ∈ steps, IsFileName s) (asked : IsQueryFile files query)
    (start : query.isAbsolute = true) (hquery : query.IsPlain) :
    ∃ t, test? files directory (String.ofList (Url.along steps) ++ "#") r query = some t ∧
      t.Asks (String.ofList (Url.along steps) ++ "#") query ∧
      t.data = (if isBare r.testKind then [] else r.data.filterMap fun d => fileIri? (directory.join d)) ∧
      t.result = if isBare r.testKind then none else (result? files query).bind fileIri? := by
  obtain ⟨name, named⟩ : ∃ name, query.fileName? = some name := by
    rcases asked.2 with extension | extension
    all_goals
      obtain ⟨name, named, _⟩ := Option.bind_eq_some_iff.mp extension
      exact ⟨name, named⟩
  obtain ⟨iri, refer, refers⟩ := exists_fileIri start hquery
  have hname : query.fileStem? = some (String.ofList (Path.cutExtension name).1) := by
    rw [Path.fileStem?, named, Option.map_some]
  have hid : isIri (String.ofList (Url.along steps) ++ "#" ++
      String.ofList (Path.cutExtension name).1) = true := by
    obtain ⟨front, all, -⟩ := Path.exists_steps_of_fileName? start named
    have file : IsFileName name := hquery name (by rw [all]; simp)
    have text : (String.ofList (Url.along steps) ++ "#" ++ String.ofList (Path.cutExtension name).1).toList =
        Url.along steps ++ '#' :: (Path.cutExtension name).1 := by
      rw [String.toList_append, String.toList_append, List.append_assoc, String.toList_ofList,
        String.toList_ofList (l := (Path.cutExtension name).1)]
      rfl
    rw [isIri, text]
    exact Url.isAbsolute_along_fragment names fun c hc =>
      file.chars c ((Path.isPrefix_cutExtension name).subset hc)
  unfold test?
  rw [hname, refer]
  simp only [Option.bind_eq_bind, Option.bind_some, Option.filter_some, hid, if_true]
  cases bare : isBare r.testKind with
  | true =>
    have data : ∀ d ∈ ([] : List String), isIri d = true := fun _ hd => absurd hd List.not_mem_nil
    have result : ∀ e ∈ (none : Option String), isIri e = true := fun _ he => absurd he (Option.not_mem_none _)
    exact ⟨_, rfl, ⟨hname, rfl, refers, hid, refers.absolute, data, result⟩, rfl, rfl⟩
  | false =>
    refine ⟨_, rfl, ⟨hname, rfl, refers, hid, refers.absolute, fun d hd => ?_, fun e he => ?_⟩, rfl, rfl⟩
    · obtain ⟨_, _, read⟩ := List.mem_filterMap.mp hd
      exact isIri_of_fileIri? read
    · obtain ⟨_, _, read⟩ := Option.bind_eq_some_iff.mp he
      exact isIri_of_fileIri? read

end Plan

end SparqlConformance
