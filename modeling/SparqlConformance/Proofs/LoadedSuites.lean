import SparqlConformance.Proofs.EncodedText
import SparqlConformance.Proofs.JoinedPaths
import SparqlConformance.Proofs.ManifestLoading
import SparqlConformance.Suites.Suite
/-!
# Loaded suites

What is known of a suite because it was loaded: where it runs and which manifests list its tests. The files
of a test are named by terms of its manifest. If the manifest of a suite has an absolute path, then so have
all manifests that it includes and all files of their tests.
-/
namespace SparqlConformance

variable {σ α β : Type}

/-- A preparation gives something exactly if each of its steps does. -/
theorem run_bind_eq_ok_iff {first : Preparation σ α} {next : α → Preparation σ β} {s s' : σ} {b : β} :
    (first >>= next).run.run s = (.ok b, s') ↔
      ∃ a s₁, first.run.run s = (.ok a, s₁) ∧ (next a).run.run s₁ = (.ok b, s') := by
  rw [ExceptT.run_bind, StateT.run_bind]
  obtain ⟨result, s₁, ran⟩ : ∃ result s₁, first.run.run s = (result, s₁) := ⟨_, _, rfl⟩
  rw [ran]
  cases result with
  | error e =>
    constructor
    · intro h
      cases h
    · rintro ⟨a, s₂, h, _⟩
      cases h
  | ok a =>
    constructor
    · exact fun h => ⟨a, s₁, rfl, h⟩
    · rintro ⟨_, _, h, rest⟩
      cases h
      exact rest

namespace Suite

open Manifest in
/-- How a suite is loaded, step by step. -/
theorem load_eq_ok_iff {w : World σ} {settings : Settings} {name : String} {manifest : Path} {s s' : σ}
    {suite : Suite} :
    (load w settings name manifest).run.run s = (.ok suite, s') ↔
      ∃ index s₁ node entries,
        (Manifest.index w ⟨settings.converter, .inherited, settings.timeout⟩ manifest).run.run s =
          (.ok index, s₁) ∧
        primaryNode index = .ok node ∧
        (Manifest.load w ⟨settings.converter, suite.environment, settings.timeout⟩ index).run.run s₁ =
          (.ok entries, s') ∧
        suite = ⟨name, directoryOf manifest, index.literal? node (Vocab.rdfs "comment"),
          (index.literal? node (Vocab.plan "path")).map fun path => (directoryOf manifest).join ⟨path⟩,
          entries.filterMap (testOf? (w.files s') settings)⟩ := by
  unfold load
  constructor
  · intro h
    obtain ⟨index, s₁, read, h⟩ := run_bind_eq_ok_iff.mp h
    obtain ⟨node, s₂, known, h⟩ := run_bind_eq_ok_iff.mp h
    obtain ⟨primary, rfl⟩ : primaryNode index = .ok node ∧ s₁ = s₂ := Prod.mk.inj known
    obtain ⟨entries, s₃, loads, h⟩ := run_bind_eq_ok_iff.mp h
    obtain ⟨files, s₄, view, h⟩ := run_bind_eq_ok_iff.mp h
    cases view
    cases h
    exact ⟨index, s₁, node, entries, read, primary, loads, rfl⟩
  · rintro ⟨index, s₁, node, entries, read, primary, loads, rfl⟩
    refine run_bind_eq_ok_iff.mpr ⟨index, s₁, read, ?_⟩
    refine run_bind_eq_ok_iff.mpr ⟨node, s₁, by rw [primary]; rfl, ?_⟩
    exact run_bind_eq_ok_iff.mpr ⟨entries, s', loads, rfl⟩

end Suite

namespace Manifest

/-- What a step of loading gives has a property, whatever the stack and the state. -/
def Ensures (step : Loading σ α) (post : α → Prop) : Prop :=
  ∀ stack s a stack' s', (step.run.run stack).run s = ((.ok a, stack'), s') → post a

namespace Ensures

theorem of_pure {result : Except SetupError α} {post : α → Prop} (h : ∀ a, result = .ok a → post a) :
    Ensures (ExceptT.mk (pure result) : Loading σ α) post := by
  intro stack s a stack' s' ran
  exact h a (Prod.mk.inj (Prod.mk.inj ran).1).1

theorem of_ok {a : α} {post : α → Prop} (h : post a) : Ensures (pure a : Loading σ α) post := by
  intro stack s b stack' s' ran
  cases ran
  exact h

theorem of_throw (e : SetupError) (post : α → Prop) : Ensures (throw e : Loading σ α) post := by
  intro stack s b stack' s' ran
  cases ran

theorem bind {step : Loading σ α} {next : α → Loading σ β} {pre : α → Prop} {post : β → Prop}
    (first : Ensures step pre) (second : ∀ a, pre a → Ensures (next a) post) :
    Ensures (step >>= next) post := by
  intro stack s b stack' s' ran
  rw [ExceptT.run_bind, StateT.run_bind, StateT.run_bind] at ran
  obtain ⟨result, stack₁, s₁, ran₁⟩ : ∃ result stack₁ s₁,
    (step.run.run stack).run s = ((result, stack₁), s₁) := ⟨_, _, _, rfl⟩
  rw [ran₁] at ran
  cases result with
  | error e => cases ran
  | ok a => exact second a (first stack s a stack₁ s₁ ran₁) stack₁ s₁ b stack' s' ran

theorem visiting {step : Loading σ α} {post : α → Prop} (h : Ensures step post) (place : Path) :
    Ensures (visiting place step) post := by
  intro stack s a stack' s' ran
  simp only [Manifest.visiting, ExceptT.run_mk, StateT.run_bind, StateT.run_get, pure_bind] at ran
  split at ran
  · cases ran
  · obtain ⟨result, stack₁, s₁, ran₁⟩ : ∃ result stack₁ s₁,
      (step.run.run (place :: stack)).run s = ((result, stack₁), s₁) := ⟨_, _, _, rfl⟩
    simp only [StateT.run_bind, StateT.run_modify, pure_bind, ran₁, StateT.run_pure] at ran
    obtain rfl := (Prod.mk.inj (Prod.mk.inj ran).1).1
    exact h _ s a stack₁ s₁ ran₁

theorem joinAll {f : α → Loading σ (List β)} {post : β → Prop} {as : List α}
    (each : ∀ a ∈ as, Ensures (f a) fun bs => ∀ b ∈ bs, post b) :
    Ensures (joinAll f as) fun bs => ∀ b ∈ bs, post b := by
  induction as with
  | nil => exact of_ok fun b hb => absurd hb List.not_mem_nil
  | cons a as ih =>
    refine (each a List.mem_cons_self).bind fun first hfirst => ?_
    refine (ih fun a' h => each a' (List.mem_cons_of_mem _ h)).bind fun rest hrest => ?_
    exact of_ok fun b hb => (List.mem_append.mp hb).elim (hfirst b) (hrest b)

end Ensures

/-- The converter reads nothing that lies in no directory, such as the root. -/
def NeedsDirectory (w : World σ) (converter : Converter) : Prop :=
  ∀ path s index s', (Manifest.index w converter path).run.run s = (.ok index, s') →
    path.parent?.isSome = true

theorem source_of_index {w : World σ} {converter : Converter} {path : Path} {s s' : σ}
    {index : TripleIndex} (read : (Manifest.index w converter path).run.run s = (.ok index, s')) :
    source index = path := by
  have answered : indexOf converter path ((w.call false (converter.command path)).run s).1 =
      .ok index := congrArg Prod.fst read
  exact source_of_indexOf answered

/-- Relative references of a manifest start from an absolute path. -/
def HasAbsoluteBase (index : TripleIndex) : Prop := (base (source index)).isAbsolute = true

theorem isAbsolute_base {manifest : Path} (h : manifest.isAbsolute = true)
    (parent : manifest.parent?.isSome = true) : (base manifest).isAbsolute = true := by
  obtain ⟨s, hs⟩ := Path.isAbsolute_iff.mp h
  obtain ⟨dir, hdir⟩ := Option.isSome_iff_exists.mp parent
  rw [base, hdir, Option.getD_some]
  unfold Path.parent? Path.parts at hdir
  rw [hs] at hdir
  dsimp only at hdir
  split at hdir
  · cases hdir
  · cases hdir
    exact Path.isAbsolute_iff.mpr ⟨_, String.toList_ofList⟩

theorem isAbsolute_filePath {url : Url} {path : Path} (h : url.filePath? = some path) :
    path.isAbsolute = true := by
  have slash : ∀ r, Utf8.decodeLossy (0x2F :: r) = '/' :: Utf8.decodeLossy r := by
    intro r
    rw [Utf8.decodeLossy, Utf8.items_one (l := ⟨0, 0x2F, 0, 0⟩) rfl rfl]
    rfl
  unfold Url.filePath? at h
  split at h
  · rename_i segments _ hsegments
    obtain ⟨first, rest, rfl⟩ : ∃ first rest, segments = first :: rest := by
      refine List.exists_cons_of_ne_nil ?_
      rintro rfl
      unfold Url.segments? at hsegments
      split at hsegments
      · exact splitAt_ne_nil _ _ (Option.some.inj hsegments)
      · cases hsegments
    obtain rfl := Option.some.inj h
    refine Path.isAbsolute_iff.mpr ?_
    rw [String.toList_ofList, List.flatMap_cons, List.cons_append]
    have starts : ∀ (drive : Bool) (bytes : List UInt8), ∃ r,
        Utf8.decodeLossy (if drive then 0x2F :: bytes ++ [0x2F] else 0x2F :: bytes) = '/' :: r := by
      intro drive bytes
      cases drive with
      | true => exact ⟨_, slash _⟩
      | false => exact ⟨_, slash _⟩
    exact starts _ _
  · cases h

theorem isAbsolute_resolve {manifest path : Path} {t : Term}
    (absolute : (base manifest).isAbsolute = true) (h : resolve? manifest t = some path) :
    path.isAbsolute = true := by
  unfold resolve? at h
  split at h
  · split at h
    · cases h
    · split at h
      · exact isAbsolute_filePath h
      · obtain ⟨name, _, rfl⟩ := Option.map_eq_some_iff.mp h
        exact Path.isAbsolute_join absolute
  · split at h
    · cases h
    · cases h
      exact Path.isAbsolute_join absolute
  · cases h

section Absolute

variable {w : World σ} {converter : Converter}

theorem ensures_gather {loadPath : Path → Loading σ (List ManifestEntry)} {index : TripleIndex}
    (absolute : HasAbsoluteBase index)
    (each : ∀ path, path.isAbsolute = true →
      Ensures (loadPath path) fun entries => ∀ e ∈ entries, HasAbsoluteBase e.index) :
    Ensures (gather loadPath index) fun entries => ∀ e ∈ entries, HasAbsoluteBase e.index := by
  have files : Ensures (ExceptT.mk (pure (includedFiles index)) : Loading σ (List Path))
      fun paths => ∀ path ∈ paths, path.isAbsolute = true := by
    refine .of_pure fun paths known path hpath => ?_
    obtain ⟨_, items, _, rfl⟩ := includedFiles_eq_ok_iff.mp known
    obtain ⟨t, _, ht⟩ := List.mem_filterMap.mp hpath
    exact isAbsolute_resolve absolute ht
  have own : Ensures (ExceptT.mk (pure (ownEntries index)) : Loading σ (List ManifestEntry))
      fun entries => ∀ e ∈ entries, HasAbsoluteBase e.index := by
    refine .of_pure fun own known e he => ?_
    unfold ownEntries at known
    cases hentries : entries index with
    | error e =>
      rw [hentries] at known
      cases known
    | ok ids =>
      rw [hentries] at known
      cases known
      obtain ⟨id, _, rfl⟩ := List.mem_map.mp he
      exact absolute
  refine files.bind fun paths hpaths => ?_
  refine (Ensures.joinAll fun path hpath => each path (hpaths path hpath)).bind fun included hincluded => ?_
  refine own.bind fun own hown => ?_
  exact .of_ok fun e he => (List.mem_append.mp he).elim (hincluded e) (hown e)

theorem ensures_loadFile (needs : NeedsDirectory w converter)
    {loader : TripleIndex → Loading σ (List ManifestEntry)} {path : Path}
    (absolute : path.isAbsolute = true)
    (each : ∀ index, HasAbsoluteBase index →
      Ensures (loader index) fun entries => ∀ e ∈ entries, HasAbsoluteBase e.index) :
    Ensures (loadFile w converter loader path)
      fun entries => ∀ e ∈ entries, HasAbsoluteBase e.index := by
  have read : Ensures (apart (Manifest.index w converter path)) HasAbsoluteBase := by
    intro stack s index stack' s' ran
    rw [apart, ExceptT.run_mk, StateT.run_lift, StateT.run_bind] at ran
    obtain ⟨result, s₁, ran₁⟩ : ∃ result s₁,
      (Manifest.index w converter path).run.run s = (result, s₁) := ⟨_, _, rfl⟩
    rw [ran₁] at ran
    obtain rfl : result = .ok index := (Prod.mk.inj (Prod.mk.inj ran).1).1
    rw [HasAbsoluteBase, source_of_index ran₁]
    exact isAbsolute_base absolute (needs path s index s₁ ran₁)
  exact read.bind each

/-- The entries that are loaded from an absolute manifest come from absolute manifests. -/
theorem ensures_loadWithin (needs : NeedsDirectory w converter) (bound : Nat) {index : TripleIndex}
    (absolute : HasAbsoluteBase index) :
    Ensures (loadWithin w converter bound index)
      fun entries => ∀ e ∈ entries, HasAbsoluteBase e.index := by
  have view : Ensures (liftM w.view : Loading σ FileView) fun _ => True :=
    fun _ _ _ _ _ _ => trivial
  induction bound generalizing index with
  | zero =>
    refine view.bind fun files _ => Ensures.visiting ?_ _
    exact .of_throw _ _
  | succ bound ih =>
    refine view.bind fun files _ => Ensures.visiting ?_ _
    exact ensures_gather absolute fun path hpath =>
      ensures_loadFile needs hpath fun index habsolute => ih habsolute

theorem hasAbsoluteBase_of_load (needs : NeedsDirectory w converter) {index : TripleIndex}
    (absolute : HasAbsoluteBase index) {s s' : σ} {entries : List ManifestEntry}
    (loads : (load w converter index).run.run s = (.ok entries, s')) :
    ∀ e ∈ entries, HasAbsoluteBase e.index := by
  obtain ⟨result, stack, s₁, ran⟩ : ∃ result stack s₁,
    ((loadWithin w converter (w.fileBound s + 1) index).run.run []).run s = ((result, stack), s₁) :=
      ⟨_, _, _, rfl⟩
  rw [load, ExceptT.run_mk, StateT.run_bind, StateT.run_get, pure_bind, StateT.run_bind] at loads
  dsimp only at loads
  rw [ran] at loads
  obtain rfl : result = .ok entries := (Prod.mk.inj loads).1
  exact ensures_loadWithin needs _ absolute [] s entries stack s₁ ran

end Absolute

end Manifest

namespace TestCase

/-- The files of a test that the engine is given. -/
def engineFiles (t : TestCase) : List Path := t.query.toList ++ (t.data ++ t.namedGraphs)

/-- A manifest names a file if one of its terms may stand for it. -/
def Names (index : TripleIndex) (p : Path) : Prop := ∃ t, file? index t = some p

variable {index : TripleIndex} {p : Path}

theorem names_of_mem_files {subject : Term} {property : String} (h : p ∈ files index subject property) :
    Names index p := by
  obtain ⟨t, _, ht⟩ := List.mem_filterMap.mp h
  exact ⟨t, ht⟩

theorem names_of_graphFile {graph : Term} (h : graphFile? index graph = some p) : Names index p := by
  unfold graphFile? at h
  split at h
  · obtain ⟨t, _, ht⟩ := Option.bind_eq_some_iff.mp h
    exact ⟨t, ht⟩
  · exact ⟨graph, h⟩

theorem names_of_action {node : Option Term} (h : p ∈ (action index node).query.toList ++
      ((action index node).data ++ (action index node).namedGraphs)) : Names index p := by
  unfold action at h
  split at h
  · cases h
  · dsimp only at h
    simp only [List.mem_append, Option.mem_toList] at h
    rcases h with query | (data | data) | graph
    · obtain ⟨t, _, ht⟩ := Option.bind_eq_some_iff.mp query
      exact ⟨t, ht⟩
    · exact names_of_mem_files data
    · exact names_of_mem_files data
    · obtain ⟨t, _, ht⟩ := List.mem_filterMap.mp graph
      exact names_of_graphFile ht
  · simp only [List.mem_append, Option.mem_toList, List.not_mem_nil, or_false] at h
    exact ⟨_, h⟩

/-- The files of a test are named by its manifest. -/
theorem names_of_ofEntry {place : Path} {id : Term} {runEntailment : Bool} {t : TestCase}
    (read : ofEntry? index place id runEntailment = some t) (h : p ∈ t.engineFiles) : Names index p := by
  unfold ofEntry? at read
  split at read
  · cases read
  · dsimp only at read
    split at read
    · cases read
    · obtain rfl := Option.some.inj read
      exact names_of_action h

end TestCase

namespace Suite

/-- A suite whose manifest has an absolute path runs in an absolute directory, has its own programs in
an absolute one, and hands absolute paths to the engine. -/
theorem isAbsolute_of_load {w : World σ} {settings : Settings} {name : String} {manifest : Path} {s s' : σ}
    {suite : Suite} (needs : ∀ environment,
      Manifest.NeedsDirectory w ⟨settings.converter, environment, settings.timeout⟩)
    (absolute : manifest.isAbsolute = true)
    (loaded : (load w settings name manifest).run.run s = (.ok suite, s')) :
    suite.directory.isAbsolute = true ∧ (∀ p ∈ suite.programs, p.isAbsolute = true) ∧
      ∀ t ∈ suite.tests, ∀ p ∈ t.engineFiles, p.isAbsolute = true := by
  obtain ⟨index, s₁, node, entries, read, _, loads, rfl⟩ := load_eq_ok_iff.mp loaded
  have parent := needs _ _ _ _ _ read
  have base := Manifest.isAbsolute_base absolute parent
  have directory : (directoryOf manifest).isAbsolute = true := by
    obtain ⟨dir, hdir⟩ := Option.isSome_iff_exists.mp parent
    rw [Manifest.base, hdir, Option.getD_some] at base
    obtain ⟨r, hr⟩ := Path.isAbsolute_iff.mp base
    unfold directoryOf
    rw [hdir]
    dsimp only
    rw [if_neg (by rw [String.isEmpty_iff, ← String.toList_inj, hr]; exact List.cons_ne_nil _ _)]
    exact base
  refine ⟨directory, ?_, ?_⟩
  · intro p hp
    obtain ⟨path, _, rfl⟩ := Option.map_eq_some_iff.mp hp
    exact Path.isAbsolute_join directory
  · intro t ht p hp
    obtain ⟨e, he, read_t⟩ := List.mem_filterMap.mp ht
    have start : Manifest.HasAbsoluteBase index := by
      rwa [Manifest.HasAbsoluteBase, Manifest.source_of_index read]
    obtain ⟨term, hterm⟩ := TestCase.names_of_ofEntry read_t hp
    exact Manifest.isAbsolute_resolve (Manifest.hasAbsoluteBase_of_load (needs _) start loads e he) hterm

end Suite

end SparqlConformance
