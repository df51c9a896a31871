import SparqlConformance.Proofs.LoadedSuites
import SparqlConformance.Proofs.PlannedTriples
import SparqlConformance.Suites.Run
/-!
# Files of the engine

The engine runs in the directory of its suite, and the harness in a place of its own. What the arguments of
the engine mean there is compared with the files that the harness opens. Absolute paths mean the same
everywhere; a relative path means the same only if the suite lies in the place of the harness.
-/
namespace SparqlConformance

open Text

variable {σ : Type}

namespace Url

/-- The path that a `file:` URL of a local file stands for. -/
def localPath? (s : List Char) : Option Path :=
  (stripStart "file://".toList s).map fun r =>
    ⟨String.ofList (Utf8.decodeLossy (percentDecode r))⟩

/-- Encoded segments are decoded to the text of the path that they were taken from. -/
theorem percentDecode_segments (names : List (List Char)) :
    percentDecode (names.flatMap fun s => '/' :: percentEncode inSegmentSet s) =
      Utf8.encode (names.flatMap ('/' :: ·)) := by
  induction names with
  | nil => rfl
  | cons name names ih =>
    rw [List.flatMap_cons, List.flatMap_cons, List.cons_append, percentDecode_plain (by decide),
      percentDecode_percentEncode (by decide), ih]
    simp only [Utf8.encode, List.cons_append, List.flatMap_cons, List.flatMap_append]

/-- The URL of an absolute path stands for a path with the same components. -/
theorem exists_localPath {p : Path} (h : p.isAbsolute = true) :
    ∃ url q, ofFilePath? p = some url ∧ localPath? url.toList = some q ∧ q.isAbsolute = true ∧
      q.steps = p.steps := by
  have names : ∀ s ∈ p.names, '/' ∉ s ∧ Path.isIdle s = false := by
    intro s hs
    rw [Path.names_of_isAbsolute h] at hs
    exact ⟨Path.not_mem_of_mem_steps hs, Path.not_idle_of_mem_steps hs⟩
  have decoded : ∀ r, localPath? (String.ofList ("file://".toList ++ r)).toList =
      some ⟨String.ofList (Utf8.decodeLossy (percentDecode r))⟩ := by
    intro r
    have text : (String.ofList ("file://".toList ++ r)).toList = "file://".toList ++ r :=
      String.toList_ofList
    rw [localPath?, text, stripStart_append, Option.map_some]
  rw [ofFilePath?, if_pos h, ← Path.names_of_isAbsolute h]
  cases hnames : p.names with
  | nil => exact ⟨_, ⟨"/"⟩, rfl, (decoded ['/']).trans (by decide), by decide, by decide⟩
  | cons name rest =>
    rw [hnames] at names
    have text := percentDecode_segments (name :: rest)
    rw [List.flatMap_cons, List.cons_append] at text
    refine ⟨_, ⟨String.ofList ((name :: rest).flatMap ('/' :: ·))⟩, rfl, ?_, ?_, ?_⟩
    · rw [List.flatMap_cons, List.cons_append, List.isEmpty_cons, if_neg Bool.false_ne_true, decoded,
        text, Utf8.decodeLossy_encode]
    · exact Path.isAbsolute_iff.mpr ⟨_, String.toList_ofList⟩
    · exact Path.steps_of_text (fun s hs => (names s hs).1) (fun s hs => (names s hs).2)
        String.toList_ofList

end Url

/-- The file that an argument names for a program that runs in a directory. -/
def fileOfArgument (directory : Path) (argument : String) : Path :=
  directory.join ((Url.localPath? argument.toList).getD ⟨argument⟩)

namespace Command

/-- Where a program runs that is called from a place. -/
def directory (c : Command) (place : Path) : Path :=
  match c.workingDirectory with
  | some dir => place.join dir
  | none => place

/-- By an argument a program means the file that a path names where it is called from. -/
def Means (c : Command) (place : Path) (argument : String) (file : Path) : Prop :=
  (fileOfArgument (c.directory place) argument).same (place.join file) = true

end Command

namespace EngineRequest

/-- A request that the tests of a suite make. -/
structure IsFor (r : EngineRequest) (t : TestCase) : Prop where
  query : t.query = some r.query
  data : r.data ⊆ t.data
  namedGraphs : r.namedGraphs ⊆ t.namedGraphs

/-- The files of a request with the arguments that stand for them. -/
def fileArguments (r : EngineRequest) : List (String × Path) :=
  (queryArgument r.query, r.query) :: (r.data ++ r.namedGraphs).map fun p => (p.text, p)

theorem IsFor.mem_engineFiles {r : EngineRequest} {t : TestCase} (asked : r.IsFor t) {argument : String}
    {p : Path} (h : (argument, p) ∈ r.fileArguments) : p ∈ t.engineFiles := by
  unfold TestCase.engineFiles
  rcases List.mem_cons.mp h with query | other
  · obtain ⟨_, rfl⟩ := Prod.mk.inj query
    rw [asked.query]
    exact List.mem_cons_self
  · obtain ⟨q, hq, same⟩ := List.mem_map.mp other
    obtain ⟨_, rfl⟩ := Prod.mk.inj same
    refine List.mem_append_right _ (List.mem_append.mpr ?_)
    exact (List.mem_append.mp hq).imp (asked.data ·) (asked.namedGraphs ·)

end EngineRequest

section Meanings

variable {c : Command} {place p : Path}

theorem localPath?_of_isAbsolute (h : p.isAbsolute = true) : Url.localPath? p.text.toList = none := by
  obtain ⟨s, hs⟩ := Path.isAbsolute_iff.mp h
  rw [Url.localPath?, hs]
  rfl

theorem isAbsolute_directory (hplace : place.isAbsolute = true) :
    (c.directory place).isAbsolute = true := by
  unfold Command.directory
  split
  · exact Path.isAbsolute_join hplace
  · exact hplace

/-- Wherever two programs run, an absolute path leads them to the same file; a relative one does only if
they run in the same place. -/
theorem Path.same_join_iff {here there : Path} (hthere : there.isAbsolute = true)
    (hhere : here.isAbsolute = true) (p : Path) :
    (there.join p).same (here.join p) = true ↔ p.isAbsolute = true ∨ there.same here = true := by
  cases hp : p.isAbsolute with
  | true =>
    rw [Path.join_of_isAbsolute hp, Path.join_of_isAbsolute hp]
    exact iff_of_true (Path.same_refl p) (.inl rfl)
  | false =>
    rw [Path.same_iff_steps (Path.isAbsolute_join hthere) (Path.isAbsolute_join hhere),
      Path.same_iff_steps hthere hhere, Path.steps_join hthere hp, Path.steps_join hhere hp,
      List.append_left_inj, or_iff_right Bool.false_ne_true]

/-- A path that does not look like a URL is taken as it is. -/
theorem Command.means_text_iff (hplace : place.isAbsolute = true)
    (plain : Url.localPath? p.text.toList = none) :
    c.Means place p.text p ↔ p.isAbsolute = true ∨ (c.directory place).same place = true := by
  rw [Command.Means, fileOfArgument, plain, Option.getD_none]
  exact Path.same_join_iff (isAbsolute_directory hplace) hplace p

/-- The query argument means the query where its path would. -/
theorem Command.means_queryArgument_iff (hplace : place.isAbsolute = true)
    (plain : Url.localPath? p.text.toList = none) :
    c.Means place (EngineRequest.queryArgument p) p ↔
      p.isAbsolute = true ∨ (c.directory place).same place = true := by
  cases hp : p.isAbsolute with
  | true =>
    obtain ⟨url, q, hurl, hq, absolute, steps⟩ := Url.exists_localPath hp
    refine iff_of_true ?_ (.inl rfl)
    rw [Command.Means, EngineRequest.queryArgument, hurl, Option.getD_some, fileOfArgument, hq,
      Option.getD_some, Path.join_of_isAbsolute absolute, Path.join_of_isAbsolute hp,
      Path.same_iff_steps absolute hp, steps]
  | false =>
    have relative : EngineRequest.queryArgument p = p.text := by
      rw [EngineRequest.queryArgument, Url.ofFilePath?, if_neg (by rw [hp]; exact Bool.false_ne_true)]
      rfl
    rw [relative, ← hp]
    exact Command.means_text_iff hplace plain

end Meanings

/-- How a command hands the files of a request over: the query at the end, data and graphs behind their
flags. -/
structure Command.HandsOver (c : Command) (e : Engine) (r : EngineRequest) : Prop where
  query : c.args.getLast? = some (EngineRequest.queryArgument r.query)
  data : r.parseOnly = false → e.dataFlag.isEmpty = false →
    ∀ p ∈ r.data, [e.dataFlag, p.text] <:+: c.args
  namedGraphs : r.parseOnly = false → e.namedGraphFlag.isEmpty = false →
    ∀ p ∈ r.namedGraphs, [e.namedGraphFlag, p.text] <:+: c.args

theorem Engine.infix_options {flag : String} (used : flag.isEmpty = false) {ps : List Path} {p : Path}
    (hp : p ∈ ps) : [flag, p.text] <:+: ps.flatMap fun q => Engine.option flag q.text := by
  obtain ⟨before, after, rfl⟩ := List.append_of_mem hp
  rw [List.flatMap_append, List.flatMap_cons, ← List.append_assoc, Engine.option, used,
    if_neg Bool.false_ne_true]
  exact List.infix_append _ _ _

theorem TestBed.command_handsOver (b : TestBed) (r : EngineRequest) :
    (b.command r).HandsOver b.settings.engine r := by
  have args : (b.command r).args = b.settings.engine.tool.args ++ b.settings.engine.args r := rfl
  constructor
  case query =>
    rw [args, Engine.args, ← List.append_assoc, List.getLast?_concat]
  case data =>
    intro evaluates used p hp
    refine (Engine.infix_options used hp).trans ?_
    rw [args, Engine.args, evaluates, if_neg Bool.false_ne_true]
    simp only [← List.append_assoc]
    rw [List.append_assoc _ _ [EngineRequest.queryArgument r.query]]
    exact List.infix_append _ _ _
  case namedGraphs =>
    intro evaluates used p hp
    refine (Engine.infix_options used hp).trans ?_
    rw [args, Engine.args, evaluates, if_neg Bool.false_ne_true]
    simp only [← List.append_assoc]
    exact List.infix_append _ _ _

theorem Suite.searchFirst_environmentOf (programs : Option Path) :
    (Suite.environmentOf programs).searchFirst = programs.toList := by
  cases programs <;> rfl

/-- The files that the engine is given mean the same to it as to the harness exactly if their paths are
absolute, or if the manifest lies in the place of the harness; the same holds for the programs of the suite.
All of them are absolute if the manifest has an absolute path. A relative path that looks like a URL
is another matter, since the engine takes it for one. -/
theorem Suite.engine_means_iff {w : World σ} {settings : Settings} {name : String} {manifest : Path}
    {s s' : σ} {suite : Suite} (loaded : (Suite.load w settings name manifest).run.run s = (.ok suite, s'))
    {place : Path} (hplace : place.isAbsolute = true) {t : TestCase} (ht : t ∈ suite.tests)
    {r : EngineRequest} (asked : r.IsFor t) :
    let c := (suite.testBed settings).command r
    let here := (place.join (Suite.directoryOf manifest)).same place = true
    c.HandsOver settings.engine r ∧
      (∀ argument p, (argument, p) ∈ r.fileArguments → Url.localPath? p.text.toList = none →
        (c.Means place argument p ↔ p.isAbsolute = true ∨ here)) ∧
      (∀ p ∈ c.environment.searchFirst,
        (((c.directory place).join p).same (place.join p) = true ↔ p.isAbsolute = true ∨ here)) ∧
      (manifest.isAbsolute = true → (∀ environment,
          Manifest.NeedsDirectory w ⟨settings.converter, environment, settings.timeout⟩) →
        (∀ argument p, (argument, p) ∈ r.fileArguments → c.Means place argument p) ∧
          ∀ p ∈ c.environment.searchFirst,
            ((c.directory place).join p).same (place.join p) = true) := by
  intro c here
  obtain ⟨index, s₁, node, entries, _, _, _, rfl⟩ := Suite.load_eq_ok_iff.mp loaded
  have plain : ∀ p : Path, p.isAbsolute = true → Url.localPath? p.text.toList = none := fun _ =>
    localPath?_of_isAbsolute
  have files : ∀ argument p, (argument, p) ∈ r.fileArguments → Url.localPath? p.text.toList = none →
      (c.Means place argument p ↔ p.isAbsolute = true ∨ here) := by
    intro argument p hp text
    rcases List.mem_cons.mp hp with query | other
    · obtain ⟨rfl, rfl⟩ := Prod.mk.inj query
      exact Command.means_queryArgument_iff hplace text
    · obtain ⟨q, _, same⟩ := List.mem_map.mp other
      obtain ⟨rfl, rfl⟩ := Prod.mk.inj same
      exact Command.means_text_iff hplace text
  have programs : ∀ p : Path, ((c.directory place).join p).same (place.join p) = true ↔
      p.isAbsolute = true ∨ here :=
    Path.same_join_iff (isAbsolute_directory hplace) hplace
  refine ⟨TestBed.command_handsOver _ r, files, fun p _ => programs p, ?_⟩
  intro absolute needs
  obtain ⟨_, absolute_programs, absolute_files⟩ := Suite.isAbsolute_of_load needs absolute loaded
  refine ⟨?_, ?_⟩
  · intro argument p hp
    have hfile : p ∈ t.engineFiles := asked.mem_engineFiles hp
    have hp' := absolute_files t ht p hfile
    exact (files argument p hp (plain p hp')).mpr (.inl hp')
  · intro p hp
    have searched : p ∈ (Suite.environmentOf _).searchFirst := hp
    rw [Suite.searchFirst_environmentOf, Option.mem_toList] at searched
    exact (programs p).mpr (.inl (absolute_programs p searched))

section Beside

open Manifest

/-- A manifest with a query, data and programs beside it. -/
def besideManifest : List Triple :=
  listing entriesProperty [.iri "t:one"] ++
    [⟨.blank "m", Vocab.plan "path", .plain "bin"⟩,
      ⟨.iri "t:one", Vocab.manifest "action", .blank "a"⟩,
      ⟨.blank "a", Vocab.query "query", .iri "t:/q.rq"⟩,
      ⟨.blank "a", Vocab.query "data", .plain "d.nt"⟩]

/-- The name of the manifest for a harness above its directory, and its absolute name. -/
def besideNames : List String := ["sub/m.nt", "/w/sub/m.nt"]

def besideWorld (name : String) : World Unit := fixedWorld [(name, besideManifest)]

def besideIndex (name : String) : TripleIndex := (TripleIndex.empty name).insertAll besideManifest

theorem isWritten_beside : ∀ t ∈ besideManifest, t.IsWritten := by
  have planned := Vocab.isAbsolute_planned
  simp only [List.forall_mem_cons] at planned
  obtain ⟨-, first, rest, nil, -, -, entries, -, action, -, query, data, path, -⟩ := planned
  have plain : ∀ l ∈ ["m", "a", "c"], IsPlainLabel l := by
    simp only [List.forall_mem_cons]
    refine ⟨⟨by decide, List.all_eq_true.mp (by decide)⟩, ⟨by decide, List.all_eq_true.mp (by decide)⟩,
      ⟨by decide, List.all_eq_true.mp (by decide)⟩, fun _ h => absurd h List.not_mem_nil⟩
  have test : isIri "t:one" = true := by decide
  have file : isIri "t:/q.rq" = true := by decide
  have labels : ∀ t ∈ besideManifest, ∀ l ∈ t.labels, l ∈ ["m", "a", "c"] := by decide
  intro t ht
  refine ⟨?_, fun l hl => plain l (labels t ht l hl)⟩
  simp only [besideManifest, listing, cells, List.cons_append, List.nil_append, List.mem_cons,
    List.not_mem_nil, or_false] at ht
  rcases ht with rfl | rfl | rfl | rfl | rfl | rfl | rfl
  · exact ⟨trivial, nofun, entries, trivial⟩
  · exact ⟨trivial, nofun, first, test⟩
  · exact ⟨trivial, nofun, rest, nil⟩
  · exact ⟨trivial, nofun, path, trivial⟩
  · exact ⟨test, nofun, action, trivial⟩
  · exact ⟨trivial, nofun, query, file⟩
  · exact ⟨trivial, nofun, data, trivial⟩

theorem triplesOfText_beside : TripleIndex.triplesOfText (printed besideManifest) = besideManifest :=
  TripleIndex.triplesOfText_document isWritten_beside

theorem index_beside (name : String) (converter : Converter) :
    (Manifest.index (besideWorld name) converter ⟨name⟩).run.run () = (.ok (besideIndex name), ()) := by
  have read := index_fixedLibrary [(name, besideManifest)] converter ⟨name⟩
  rw [List.lookup_cons_self] at read
  dsimp only at read
  rw [TripleIndex.ofNTriples, triplesOfText_beside] at read
  exact Prod.ext read rfl

theorem needsDirectory_beside {name : String} (parent : (⟨name⟩ : Path).parent?.isSome = true)
    (converter : Converter) : NeedsDirectory (besideWorld name) converter := by
  intro path s index s' read
  have known : (fixedLibrary [(name, besideManifest)] converter).index path = .ok index :=
    congrArg Prod.fst read
  rw [index_fixedLibrary] at known
  by_cases same : path.text = name
  · rw [← same] at parent
    exact parent
  · have unknown : [(name, besideManifest)].lookup path.text = none := by simp [same]
    rw [unknown] at known
    cases known

theorem besideIndex_spec : ∀ name ∈ besideNames,
    primaryNode (besideIndex name) = .ok (.blank "m") ∧
      (besideIndex name).literal? (.blank "m") (Vocab.plan "path") = some "bin" ∧
      includedFiles (besideIndex name) = .ok [] ∧
      ownEntries (besideIndex name) = .ok [⟨.iri "t:one", besideIndex name⟩] := by
  decide +kernel

theorem testOf?_beside : ∀ name ∈ besideNames,
    (Suite.testOf? ((besideWorld name).files ()) .standard ⟨.iri "t:one", besideIndex name⟩).map
        (fun t => (t.query, t.data)) =
      some (some ((Suite.directoryOf ⟨name⟩).join ⟨"q.rq"⟩),
        [(Suite.directoryOf ⟨name⟩).join ⟨"d.nt"⟩]) := by
  decide +kernel

theorem load_beside {name : String} (h : name ∈ besideNames) (converter : Converter) :
    (Manifest.load (besideWorld name) converter (besideIndex name)).run.run () =
      (.ok [⟨.iri "t:one", besideIndex name⟩], ()) := by
  obtain ⟨_, _, files, own⟩ := besideIndex_spec name h
  have declares : Declares (besideIndex name) [] [.iri "t:one"] := declares_iff.mpr ⟨files, own⟩
  have named : source (besideIndex name) = ⟨name⟩ := source_of_index (index_beside name converter)
  have read : (fixedLibrary [(name, besideManifest)] converter).index (source (besideIndex name)) =
      .ok (besideIndex name) := by
    rw [named]
    exact congrArg Prod.fst (index_beside name converter)
  have never : (fixedLibrary [(name, besideManifest)] converter).NeverReturns []
      (source (besideIndex name)) :=
    (Library.neverReturns_iff read declares).mpr
      ⟨List.not_mem_nil, fun _ h => absurd h List.not_mem_nil⟩
  obtain ⟨result, s', _, _, ran, ok_iff⟩ :=
    (serves_fixedWorld [(name, besideManifest)] converter).load_flattens trivial read
  rw [(ok_iff _).mpr ⟨.cons read declares .nil .nil, never⟩] at ran
  exact ran

/-- The suite of the manifest, and what it takes from there. -/
theorem exists_suite_beside {name : String} (h : name ∈ besideNames) :
    ∃ suite t, (Suite.load (besideWorld name) .standard "m" ⟨name⟩).run.run () = (.ok suite, ()) ∧
      suite.directory = Suite.directoryOf ⟨name⟩ ∧
      suite.programs = some ((Suite.directoryOf ⟨name⟩).join ⟨"bin"⟩) ∧
      t ∈ suite.tests ∧ t.query = some ((Suite.directoryOf ⟨name⟩).join ⟨"q.rq"⟩) ∧
      t.data = [(Suite.directoryOf ⟨name⟩).join ⟨"d.nt"⟩] := by
  obtain ⟨node, programs, _, _⟩ := besideIndex_spec name h
  obtain ⟨t, ht, files⟩ := Option.map_eq_some_iff.mp (testOf?_beside name h)
  refine ⟨_, t, Suite.load_eq_ok_iff.mpr ⟨besideIndex name, (), .blank "m",
    [⟨.iri "t:one", besideIndex name⟩], index_beside name _, node, load_beside h _, rfl⟩, rfl, ?_, ?_,
    congrArg Prod.fst files, congrArg Prod.snd files⟩
  · dsimp only
    rw [programs, Option.map_some]
  · exact List.mem_filterMap.mpr ⟨_, List.mem_singleton_self _, ht⟩

/-- The request of an evaluation of the query beside a manifest. -/
def besideRequest (directory : Path) : EngineRequest :=
  ⟨directory.join ⟨"q.rq"⟩, .sparql, none, false, none, [directory.join ⟨"d.nt"⟩], []⟩

/-- With an absolute manifest the engine is told of the very files that the harness means. -/
theorem Suite.engine_means_absolute : ∃ suite t,
    (Suite.load (besideWorld "/w/sub/m.nt") .standard "m" ⟨"/w/sub/m.nt"⟩).run.run () =
        (.ok suite, ()) ∧
      t ∈ suite.tests ∧ (besideRequest ⟨"/w/sub"⟩).IsFor t ∧
      let c := (suite.testBed .standard).command (besideRequest ⟨"/w/sub"⟩)
      c.Means ⟨"/w"⟩ "file:///w/sub/q.rq" ⟨"/w/sub/q.rq"⟩ ∧
        c.Means ⟨"/w"⟩ "/w/sub/d.nt" ⟨"/w/sub/d.nt"⟩ := by
  have known : "/w/sub/m.nt" ∈ besideNames := by decide
  obtain ⟨suite, t, loaded, _, _, ht, query, data⟩ := exists_suite_beside known
  have directory : Suite.directoryOf ⟨"/w/sub/m.nt"⟩ = ⟨"/w/sub"⟩ := by decide +kernel
  rw [directory] at query data
  have asked : (besideRequest ⟨"/w/sub"⟩).IsFor t :=
    ⟨query, fun p hp => data ▸ hp, fun p hp => absurd hp List.not_mem_nil⟩
  have place : (⟨"/w"⟩ : Path).isAbsolute = true := by decide
  obtain ⟨_, _, _, absolute⟩ := Suite.engine_means_iff loaded place ht asked
  obtain ⟨means, _⟩ := absolute (by decide) fun environment => needsDirectory_beside (by decide +kernel) _
  have arguments : (besideRequest ⟨"/w/sub"⟩).fileArguments =
      [("file:///w/sub/q.rq", ⟨"/w/sub/q.rq"⟩), ("/w/sub/d.nt", ⟨"/w/sub/d.nt"⟩)] := by
    decide +kernel
  rw [arguments] at means
  exact ⟨suite, t, loaded, ht, asked, means _ _ List.mem_cons_self,
    means _ _ (List.mem_cons_of_mem _ List.mem_cons_self)⟩

/-- A harness above the directory of the manifest means other files than the engine that it calls there:
the query, the data and the programs are looked for in a directory below. -/
theorem Suite.engine_differs_nested : ∃ suite t,
    (Suite.load (besideWorld "sub/m.nt") .standard "m" ⟨"sub/m.nt"⟩).run.run () = (.ok suite, ()) ∧
      t ∈ suite.tests ∧ (besideRequest ⟨"sub"⟩).IsFor t ∧
      let c := (suite.testBed .standard).command (besideRequest ⟨"sub"⟩)
      ¬c.Means ⟨"/w"⟩ "sub/q.rq" ⟨"sub/q.rq"⟩ ∧ ¬c.Means ⟨"/w"⟩ "sub/d.nt" ⟨"sub/d.nt"⟩ ∧
        (besideRequest ⟨"sub"⟩).fileArguments =
          [("sub/q.rq", ⟨"sub/q.rq"⟩), ("sub/d.nt", ⟨"sub/d.nt"⟩)] ∧
        c.environment.searchFirst = [⟨"sub/bin"⟩] ∧
        ((c.directory ⟨"/w"⟩).join ⟨"sub/bin"⟩).same (Path.join ⟨"/w"⟩ ⟨"sub/bin"⟩) = false := by
  have known : "sub/m.nt" ∈ besideNames := by decide
  obtain ⟨suite, t, loaded, runs, programs, ht, query, data⟩ := exists_suite_beside known
  have directory : Suite.directoryOf ⟨"sub/m.nt"⟩ = ⟨"sub"⟩ := by decide +kernel
  rw [directory] at runs programs query data
  have asked : (besideRequest ⟨"sub"⟩).IsFor t :=
    ⟨query, fun p hp => data ▸ hp, fun p hp => absurd hp List.not_mem_nil⟩
  have here : ((suite.testBed .standard).command (besideRequest ⟨"sub"⟩)).directory ⟨"/w"⟩ =
      ⟨"/w/sub"⟩ := by
    have joined : (⟨"/w"⟩ : Path).join ⟨"sub"⟩ = ⟨"/w/sub"⟩ := by decide +kernel
    rw [← joined, ← runs]
    rfl
  have searched : ((suite.testBed .standard).command (besideRequest ⟨"sub"⟩)).environment.searchFirst =
      [⟨"sub/bin"⟩] := by
    have joined : (⟨"sub"⟩ : Path).join ⟨"bin"⟩ = ⟨"sub/bin"⟩ := by decide +kernel
    change (Suite.environmentOf suite.programs).searchFirst = _
    rw [Suite.searchFirst_environmentOf, programs, joined]
    rfl
  refine ⟨suite, t, loaded, ht, asked, ?_⟩
  dsimp only
  rw [Command.Means, Command.Means, here, searched]
  decide +kernel

end Beside

end SparqlConformance
