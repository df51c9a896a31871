import SparqlConformance.Proofs.InclusionTrees
/-!
# Loading manifests

The loader against what there is to load. While the files and the answers of the converter stay the same,
the loader takes the steps of `Library.Loads`, which have no bound, and leaves the stack as it found it.
Each manifest that is opened takes a place from those that are left, so the number of places bounds how
deep the loader goes.
-/
namespace SparqlConformance.Manifest

variable {σ α β : Type}

/-- From each calm state a step gives one result, and leaves the stack as it was. -/
def Gives (calm : σ → Prop) (step : Loading σ α) (stack : List Path)
    (result : Except SetupError α) : Prop :=
  ∀ s, calm s → ∃ s', calm s' ∧ (step.run.run stack).run s = ((result, stack), s')

section Steps

variable {calm : σ → Prop} {stack : List Path}

theorem gives_done (result : Except SetupError α) :
    Gives calm (ExceptT.mk (pure result) : Loading σ α) stack result :=
  fun s hs => ⟨s, hs, rfl⟩

theorem Gives.bind_ok {step : Loading σ α} {next : α → Loading σ β} {a : α}
    {result : Except SetupError β} (first : Gives calm step stack (.ok a))
    (second : Gives calm (next a) stack result) : Gives calm (step >>= next) stack result := by
  intro s hs
  obtain ⟨s₁, hs₁, ran₁⟩ := first s hs
  obtain ⟨s₂, hs₂, ran₂⟩ := second s₁ hs₁
  refine ⟨s₂, hs₂, ?_⟩
  rw [ExceptT.run_bind, StateT.run_bind, StateT.run_bind, ran₁]
  exact ran₂

theorem Gives.bind_error {step : Loading σ α} {next : α → Loading σ β} {e : SetupError}
    (first : Gives calm step stack (.error e)) : Gives calm (step >>= next) stack (.error e) := by
  intro s hs
  obtain ⟨s₁, hs₁, ran₁⟩ := first s hs
  refine ⟨s₁, hs₁, ?_⟩
  rw [ExceptT.run_bind, StateT.run_bind, StateT.run_bind, ran₁]
  rfl

theorem Gives.visiting {step : Loading σ α} {place : Path} {result : Except SetupError α}
    (fresh : place ∉ stack) (inner : Gives calm step (place :: stack) result) :
    Gives calm (visiting place step) stack result := by
  intro s hs
  obtain ⟨s', hs', ran⟩ := inner s hs
  refine ⟨s', hs', ?_⟩
  simp only [Manifest.visiting, ExceptT.run_mk, StateT.run_bind, StateT.run_get, pure_bind,
    if_neg fresh, StateT.run_modify, ran, StateT.run_pure]
  change ((result, (place :: stack).erase place), s') = ((result, stack), s')
  rw [List.erase_cons_head]

theorem gives_visiting_of_mem {step : Loading σ α} {place : Path} (again : place ∈ stack) :
    Gives calm (visiting place step) stack (.error (.inclusionCycle place)) := by
  intro s hs
  refine ⟨s, hs, ?_⟩
  simp only [Manifest.visiting, ExceptT.run_mk, StateT.run_bind, StateT.run_get, pure_bind,
    if_pos again, StateT.run_pure]
  rfl

end Steps

/-- In calm states a converter serves a library: it gives the index of each manifest and fails on what
does not exist, the files stay what they are, and there are not more of them than the world says. -/
structure Serves (w : World σ) (converter : Converter) (lib : Library) (calm : σ → Prop) : Prop where
  files : ∀ s, calm s → w.files s = lib.files
  answers : ∀ s path, calm s →
    ∃ s', calm s' ∧ (Manifest.index w converter path).run.run s = (lib.index path, s')
  missing : ∀ path index, lib.index path = .ok index → (lib.files.canonical? path).isSome
  finite : ∃ places : List Path, (∀ path p, lib.files.canonical? path = some p → p ∈ places) ∧
    ∀ s, calm s → places.length ≤ w.fileBound s

variable {w : World σ} {converter : Converter} {lib : Library} {calm : σ → Prop}

theorem source_ofNTriples (name ntriples : String) :
    (TripleIndex.ofNTriples name ntriples).source = name :=
  TripleIndex.source_insertAll _ _

theorem source_of_indexOf {path : Path} {answer : Except LaunchError Completion} {index : TripleIndex}
    (h : indexOf converter path answer = .ok index) : source index = path := by
  unfold indexOf at h
  split at h
  · cases h
  · split at h
    · obtain rfl := Except.ok.inj h
      exact congrArg Path.mk (source_ofNTriples path.text _)
    · cases h

namespace Serves

variable (serves : Serves w converter lib calm)
include serves

theorem source {s : σ} (hs : calm s) {path : Path} {index : TripleIndex}
    (read : lib.index path = .ok index) : Manifest.source index = path := by
  obtain ⟨s', _, ran⟩ := serves.answers s path hs
  have answered : indexOf converter path ((w.call false (converter.command path)).run s).1 =
      .ok index := by
    rw [← read]
    exact congrArg Prod.fst ran
  exact source_of_indexOf answered

theorem gives_index (stack : List Path) (path : Path) :
    Gives calm (apart (Manifest.index w converter path)) stack (lib.index path) := by
  intro s hs
  obtain ⟨s', hs', ran⟩ := serves.answers s path hs
  refine ⟨s', hs', ?_⟩
  rw [apart, ExceptT.run_mk, StateT.run_lift, StateT.run_bind, ran]
  rfl

theorem gives_view (stack : List Path) :
    Gives calm (liftM w.view : Loading σ FileView) stack (.ok lib.files) := by
  intro s hs
  refine ⟨s, hs, ?_⟩
  rw [← serves.files s hs]
  rfl

end Serves

/-- How many of some places are not on a stack. -/
def room (places stack : List Path) : Nat := (places.filter (· ∉ stack)).length

theorem room_cons_lt {places stack : List Path} {place : Path} (known : place ∈ places)
    (fresh : place ∉ stack) : room places (place :: stack) < room places stack := by
  have fewer : places.filter (· ∉ place :: stack) =
      (places.filter (· ∉ stack)).filter (· ≠ place) := by
    rw [List.filter_filter]
    exact List.filter_congr fun p _ => by simp
  rw [room, room, fewer, List.length_filter_lt_length_iff_exists]
  exact ⟨place, List.mem_filter.mpr ⟨known, decide_eq_true fresh⟩, by simp⟩

/-- From a bound on, steps with a bound give what loading some manifests gives. -/
def Follows (lib : Library) (calm : σ → Prop) (least : Nat)
    (step : Nat → Loading σ (List ManifestEntry)) (stack paths : List Path) : Prop :=
  ∃ result, lib.Loads stack paths result ∧
    ∀ bound, least ≤ bound → Gives calm (step bound) stack result

theorem follows_joinAll {load : Nat → Path → Loading σ (List ManifestEntry)} {least : Nat}
    {stack paths : List Path}
    (each : ∀ path ∈ paths, Follows lib calm least (load · path) stack [path]) :
    Follows lib calm least (fun bound => joinAll (load bound) paths) stack paths := by
  induction paths with
  | nil => exact ⟨.ok [], .nil, fun _ _ => gives_done (.ok [])⟩
  | cons path paths ih =>
    obtain ⟨first, loads, gives⟩ := each path (List.mem_cons_self ..)
    cases first with
    | error e =>
      exact ⟨.error e, loads.cons_error, fun bound enough => (gives bound enough).bind_error⟩
    | ok first =>
      obtain ⟨rest, loads_rest, gives_rest⟩ := ih fun other h => each other (List.mem_cons_of_mem _ h)
      refine ⟨rest.map (first ++ ·), loads.cons_ok loads_rest, fun bound enough => ?_⟩
      refine (gives bound enough).bind_ok ?_
      cases rest with
      | error e => exact (gives_rest bound enough).bind_error
      | ok rest => exact (gives_rest bound enough).bind_ok (gives_done (.ok (first ++ rest)))

/-- What a manifest gathers is what loading it gives, once its files are loaded. -/
theorem exists_gives_gather {load : Nat → Path → Loading σ (List ManifestEntry)} {least : Nat}
    {stack : List Path} {path : Path} {index : TripleIndex} (read : lib.index path = .ok index)
    (fresh : lib.place path ∉ stack)
    (inner : ∀ files, Follows lib calm least (fun bound => joinAll (load bound) files)
      (lib.place path :: stack) files) :
    ∃ result, lib.Loads stack [path] result ∧
      ∀ bound, least ≤ bound → Gives calm (gather (load bound) index) (lib.place path :: stack) result := by
  have known {γ : Type} (result : Except SetupError γ) :
      Gives calm (ExceptT.mk (pure result)) (lib.place path :: stack) result := gives_done result
  cases includes : includedFiles index with
  | error e =>
    refine ⟨.error e, .malformed read fresh includes, fun bound _ => ?_⟩
    rw [gather, includes]
    exact (known (.error e)).bind_error
  | ok files =>
    obtain ⟨included, loads, gives⟩ := inner files
    cases included with
    | error e =>
      refine ⟨.error e, .included read fresh includes loads, fun bound enough => ?_⟩
      rw [gather, includes]
      exact (known (.ok files)).bind_ok (gives bound enough).bind_error
    | ok included =>
      cases entries : ownEntries index with
      | error e =>
        refine ⟨.error e, .unlisted read fresh includes loads entries, fun bound enough => ?_⟩
        rw [gather, includes, entries]
        exact (known (.ok files)).bind_ok
          ((gives bound enough).bind_ok (known (.error e)).bind_error)
      | ok own =>
        refine ⟨_, .cons read fresh includes loads entries .nil, fun bound enough => ?_⟩
        rw [gather, includes, entries]
        refine (known (.ok files)).bind_ok
          ((gives bound enough).bind_ok ((known (.ok own)).bind_ok ?_))
        rw [Except.map, List.append_nil]
        exact known (.ok (included ++ own))

namespace Serves

variable (serves : Serves w converter lib calm)
include serves

theorem gives_loadFile {loader : TripleIndex → Loading σ (List ManifestEntry)} {stack : List Path}
    {path : Path} {index : TripleIndex} {result : Except SetupError (List ManifestEntry)}
    (read : lib.index path = .ok index) (loads : Gives calm (loader index) stack result) :
    Gives calm (loadFile w converter loader path) stack result := by
  have here := serves.gives_index stack path
  rw [read] at here
  exact here.bind_ok loads

theorem gives_loadWithin_of_mem {stack : List Path} {index : TripleIndex} (bound : Nat)
    (again : lib.place (Manifest.source index) ∈ stack) :
    Gives calm (loadWithin w converter bound index) stack
      (.error (.inclusionCycle (lib.place (Manifest.source index)))) := by
  cases bound with
  | zero => exact (serves.gives_view stack).bind_ok (gives_visiting_of_mem again)
  | succ bound => exact (serves.gives_view stack).bind_ok (gives_visiting_of_mem again)

theorem gives_loadWithin_succ {stack : List Path} {index : TripleIndex} {bound : Nat}
    {result : Except SetupError (List ManifestEntry)}
    (fresh : lib.place (Manifest.source index) ∉ stack)
    (gathered : Gives calm (gather (loadFile w converter (loadWithin w converter bound)) index)
      (lib.place (Manifest.source index) :: stack) result) :
    Gives calm (loadWithin w converter (bound + 1) index) stack result :=
  (serves.gives_view stack).bind_ok (gathered.visiting fresh)

theorem follows_loadFile (start : ∃ s, calm s) {least : Nat} {stack : List Path}
    (opened : ∀ index, lib.index (Manifest.source index) = .ok index →
      Follows lib calm least (loadWithin w converter · index) stack [Manifest.source index])
    (path : Path) :
    Follows lib calm least (fun bound => loadFile w converter (loadWithin w converter bound) path)
      stack [path] := by
  obtain ⟨s, hs⟩ := start
  cases read : lib.index path with
  | error e =>
    have here := serves.gives_index stack path
    rw [read] at here
    exact ⟨.error e, .unreadable read, fun _ _ => here.bind_error⟩
  | ok index =>
    obtain rfl := serves.source hs read
    obtain ⟨result, loads, gives⟩ := opened index read
    exact ⟨result, loads, fun bound enough => serves.gives_loadFile read (gives bound enough)⟩

/-- The loader takes the unbounded steps when its bound allows for every place that is not open. -/
theorem follows_loadWithin (start : ∃ s, calm s) {places : List Path}
    (known : ∀ path p, lib.files.canonical? path = some p → p ∈ places) {least : Nat}
    {stack : List Path} (fits : room places stack ≤ least) {index : TripleIndex}
    (read : lib.index (Manifest.source index) = .ok index) :
    Follows lib calm least (loadWithin w converter · index) stack [Manifest.source index] := by
  induction least using Nat.strongRecOn generalizing stack index with
  | ind least ih =>
    by_cases again : lib.place (Manifest.source index) ∈ stack
    · exact ⟨_, .cycle read again, fun bound _ => serves.gives_loadWithin_of_mem bound again⟩
    · have place : lib.place (Manifest.source index) ∈ places := by
        obtain ⟨p, hp⟩ := Option.isSome_iff_exists.mp (serves.missing _ index read)
        rw [Library.place, FileView.settled, hp]
        exact known _ p hp
      have less := room_cons_lt place again
      obtain ⟨least, rfl⟩ : ∃ m, least = m + 1 := ⟨least - 1, by omega⟩
      have inner : ∀ files, Follows lib calm least
          (fun bound => joinAll (loadFile w converter (loadWithin w converter bound)) files)
          (lib.place (Manifest.source index) :: stack) files := fun _ => follows_joinAll fun other _ =>
        serves.follows_loadFile start (fun _ => ih least (Nat.lt_succ_self least) (by omega)) other
      obtain ⟨result, loads, gives⟩ := exists_gives_gather read again inner
      refine ⟨result, loads, fun bound enough => ?_⟩
      obtain ⟨bound, rfl⟩ : ∃ b, bound = b + 1 := ⟨bound - 1, by omega⟩
      exact serves.gives_loadWithin_succ again (gives bound (by omega))

/-- Loading the manifest at a path. With any bound that counts the files it gives what the unbounded
steps give: the flattening, exactly when no chain of inclusions comes back. The stack is what it was. -/
theorem loadFile_flattens {s : σ} (hs : calm s) (stack : List Path) (path : Path) :
    ∃ result, lib.Loads stack [path] result ∧
      (∀ bound, w.fileBound s ≤ bound → ∃ s', calm s' ∧
        ((loadFile w converter (loadWithin w converter bound) path).run.run stack).run s =
          ((result, stack), s')) ∧
      ∀ entries, result = .ok entries ↔
        lib.Flattens [path] entries ∧ lib.NeverReturns stack path := by
  obtain ⟨places, known, counted⟩ := serves.finite
  have fits : room places stack ≤ places.length := List.length_filter_le ..
  obtain ⟨result, loads, gives⟩ := serves.follows_loadFile ⟨s, hs⟩
    (fun _ => serves.follows_loadWithin ⟨s, hs⟩ known fits) path
  exact ⟨result, loads, fun bound enough => gives bound (Nat.le_trans (counted s hs) enough) s hs,
    loads.eq_ok_iff⟩

/-- Suites load a manifest that was read before, with an empty stack and a bound that is enough. -/
theorem load_flattens {s : σ} (hs : calm s) {index : TripleIndex}
    (read : lib.index (Manifest.source index) = .ok index) :
    ∃ result s', lib.Loads [] [Manifest.source index] result ∧ calm s' ∧
      (load w converter index).run.run s = (result, s') ∧
      ∀ entries, result = .ok entries ↔ lib.Flattens [Manifest.source index] entries ∧
        lib.NeverReturns [] (Manifest.source index) := by
  obtain ⟨places, known, counted⟩ := serves.finite
  have fits : room places [] ≤ places.length := List.length_filter_le ..
  obtain ⟨result, loads, gives⟩ := serves.follows_loadWithin ⟨s, hs⟩ known fits read
  have enough : places.length ≤ w.fileBound s + 1 := Nat.le_succ_of_le (counted s hs)
  obtain ⟨s', hs', ran⟩ := gives (w.fileBound s + 1) enough s hs
  refine ⟨result, s', loads, hs', ?_, loads.eq_ok_iff⟩
  dsimp only at ran
  rw [load, ExceptT.run_mk, StateT.run_bind, StateT.run_get, pure_bind, StateT.run_bind]
  dsimp only
  rw [ran]
  rfl

end Serves

section Diamond

/-- Triples as a converter prints them. -/
def printed (ts : List Triple) : String := String.ofList (ts.flatMap fun t => t.render ++ ['\n'])

/-- A world with some manifests, each under its name, and a converter that prints them. -/
def fixedWorld (manifests : List (String × List Triple)) : World Unit where
  files _ :=
    { content? := fun _ => none
      isFile := fun path => (manifests.lookup path.text).isSome
      isDirectory := fun _ => false
      isExecutable := fun _ => false
      canonical? := fun path => if (manifests.lookup path.text).isSome then some path else none
      entries? := fun _ => none }
  searchPath := none
  call _ command := return match command.args.getLast?.bind fun name => manifests.lookup name with
    | some ts => .ok ⟨printed ts, "", 0, false, false, 0⟩
    | none => .ok ⟨"", "no such file", 2, false, false, 0⟩
  isInterrupted := return false
  time _ := 0
  date _ := ""
  createTemporary _ _ _ := return .error "read only"
  remove _ := return ()
  write _ _ := return .error "read only"
  fileBound _ := manifests.length

def fixedLibrary (manifests : List (String × List Triple)) (converter : Converter) : Library where
  files := (fixedWorld manifests).files ()
  index path := ((Manifest.index (fixedWorld manifests) converter path).run.run ()).1

theorem index_fixedLibrary (manifests : List (String × List Triple)) (converter : Converter)
    (path : Path) :
    (fixedLibrary manifests converter).index path = match manifests.lookup path.text with
      | some ts => .ok (.ofNTriples path.text (printed ts))
      | none => .error (.unusableTool converter.tool.program
          (failureReason ⟨"", "no such file", 2, false, false, 0⟩ path)) := by
  have named : (converter.command path).args.getLast? = some path.text := by
    simp [Converter.command, Tool.command, Command.ofProgram]
  have asked : (fixedLibrary manifests converter).index path = indexOf converter path
      (match (converter.command path).args.getLast?.bind fun name => manifests.lookup name with
      | some ts => .ok ⟨printed ts, "", 0, false, false, 0⟩
      | none => .ok ⟨"", "no such file", 2, false, false, 0⟩) := rfl
  rw [asked, named, Option.bind_some]
  cases manifests.lookup path.text <;> rfl

theorem serves_fixedWorld (manifests : List (String × List Triple)) (converter : Converter) :
    Serves (fixedWorld manifests) converter (fixedLibrary manifests converter) (fun _ => True) where
  files _ _ := rfl
  answers _ _ _ := ⟨(), trivial, rfl⟩
  missing path index h := by
    rw [index_fixedLibrary] at h
    cases found : manifests.lookup path.text with
    | none =>
      rw [found] at h
      cases h
    | some ts => simp [fixedLibrary, fixedWorld, found]
  finite := by
    refine ⟨manifests.map fun named => ⟨named.1⟩, ?_, fun _ _ => by simp [fixedWorld]⟩
    intro path p hp
    have found : (manifests.lookup path.text).isSome ∧ path = p := by
      simpa [fixedLibrary, fixedWorld, Option.ite_none_right_eq_some] using hp
    obtain ⟨⟨ts, hts⟩, rfl⟩ := found.imp_left Option.isSome_iff_exists.mp
    obtain ⟨before, after, rfl, _⟩ := List.lookup_eq_some_iff.mp hts
    simp

/-- The triples of a list, from one of its cells on. -/
def cells (cell : String) : List Term → List Triple
  | [] => []
  | item :: items =>
    let next := cell ++ "n"
    ⟨.blank cell, Vocab.rdf "first", item⟩ ::
      ⟨.blank cell, Vocab.rdf "rest", if items.isEmpty then nil else .blank next⟩ :: cells next items

/-- A manifest with a list under one property. -/
def listing (property : String) (items : List Term) : List Triple :=
  ⟨.blank "m", property, .blank "c"⟩ :: cells "c" items

/-- The index of a manifest with a list under one property. -/
def listingIndex (name property : String) (items : List Term) : TripleIndex :=
  (TripleIndex.empty name).insertAll (listing property items)

/-- A manifest that includes another one directly and through a third one. -/
def diamond : List (String × List Triple) :=
  [("top", listing includeProperty [.plain "side", .plain "shared"]),
    ("side", listing includeProperty [.plain "shared"]),
    ("shared", listing entriesProperty [.iri "t:one"])]

def rapper : Converter := ⟨⟨"rapper", []⟩, .inherited, 0⟩

theorem triplesOfText_diamond : ∀ manifest ∈ diamond,
    TripleIndex.triplesOfText (printed manifest.2) = manifest.2 := by
  simp only [TripleIndex.triplesOfText, printed, String.toList_ofList]
  decide +kernel

theorem index_diamond (name : String) {property : String} {items : List Term}
    (h : diamond.lookup name = some (listing property items)) :
    (fixedLibrary diamond rapper).index ⟨name⟩ = .ok (listingIndex name property items) := by
  have listed : (name, listing property items) ∈ diamond := by
    obtain ⟨before, after, parts, _⟩ := List.lookup_eq_some_iff.mp h
    rw [parts]
    exact List.mem_append_right _ (List.mem_cons_self ..)
  have read := triplesOfText_diamond _ listed
  rw [index_fixedLibrary, h]
  dsimp only
  rw [TripleIndex.ofNTriples, read]
  rfl

theorem declares_diamond :
    Declares (listingIndex "top" includeProperty [.plain "side", .plain "shared"])
        [⟨"side"⟩, ⟨"shared"⟩] [] ∧
      Declares (listingIndex "side" includeProperty [.plain "shared"]) [⟨"shared"⟩] [] ∧
      Declares (listingIndex "shared" entriesProperty [.iri "t:one"]) [] [.iri "t:one"] := by
  simp only [declares_iff]
  decide +kernel

/-- A manifest that two others include is no cycle: its entry counts twice. -/
theorem loadFile_diamond :
    ((loadFile (fixedWorld diamond) rapper
        (loadWithin (fixedWorld diamond) rapper 3) ⟨"top"⟩).run.run []).run () =
      ((.ok [⟨.iri "t:one", listingIndex "shared" entriesProperty [.iri "t:one"]⟩,
        ⟨.iri "t:one", listingIndex "shared" entriesProperty [.iri "t:one"]⟩], []), ()) := by
  obtain ⟨top, side, shared⟩ := declares_diamond
  have read_top := index_diamond "top" rfl
  have read_side := index_diamond "side" rfl
  have read_shared := index_diamond "shared" rfl
  have flattens_shared := Library.Flattens.cons read_shared shared .nil .nil
  have flattens := Library.Flattens.cons read_top top
    (.cons read_side side flattens_shared flattens_shared) .nil
  have never_shared {stack : List Path} (fresh : ⟨"shared"⟩ ∉ stack) :
      (fixedLibrary diamond rapper).NeverReturns stack ⟨"shared"⟩ :=
    (Library.neverReturns_iff read_shared shared).mpr ⟨fresh, fun _ h => absurd h List.not_mem_nil⟩
  have never : (fixedLibrary diamond rapper).NeverReturns [] ⟨"top"⟩ := by
    refine (Library.neverReturns_iff read_top top).mpr ⟨List.not_mem_nil, ?_⟩
    refine List.forall_mem_cons.mpr ⟨?_, List.forall_mem_singleton.mpr (never_shared (by decide))⟩
    refine (Library.neverReturns_iff read_side side).mpr ⟨by decide, ?_⟩
    exact List.forall_mem_singleton.mpr (never_shared (by decide))
  obtain ⟨result, _, runs, ok_iff⟩ :=
    (serves_fixedWorld diamond rapper).loadFile_flattens trivial [] ⟨"top"⟩
  rw [(ok_iff _).mpr ⟨flattens, never⟩] at runs
  obtain ⟨_, _, ran⟩ := runs 3 (Nat.le_refl 3)
  exact ran

end Diamond

end SparqlConformance.Manifest
