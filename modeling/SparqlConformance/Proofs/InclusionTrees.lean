import SparqlConformance.Proofs.ManifestLists
/-!
# Trees of manifests

Entries of manifests that include each other, told twice: as the flattening of what each manifest
declares, and by the steps of a loader that keeps a stack of open manifests and gives up at the first
problem. Neither has a bound. The steps give the flattening exactly when no chain of inclusions comes back to
a manifest that it has passed or that was open before.
-/
namespace SparqlConformance.Manifest

/-- What is found of manifests: where paths lead, and the triples of those that can be read. -/
structure Library where
  files : FileView
  index : Path → Except SetupError TripleIndex

namespace Library

variable (lib : Library)

/-- Two paths name the same manifest when they lead to the same place. -/
def place (path : Path) : Path := lib.files.settled path

/-- One manifest includes another: an item of one of its lists of includes names it. -/
def Includes (path other : Path) : Prop :=
  ∃ index, lib.index path = .ok index ∧ ∃ head ∈ includeHeads index, ∃ n items,
    RdfList index n head items ∧ ∃ item ∈ items, resolve? (source index) item = some other

/-- The entries of manifests, one after the other: those of the included ones first, then the own ones, each
with the triples of the manifest that declares it. -/
inductive Flattens : List Path → List ManifestEntry → Prop
  | nil : Flattens [] []
  | cons {path : Path} {paths files : List Path} {index : TripleIndex} {ids : List Term}
      {included others : List ManifestEntry} (read : lib.index path = .ok index)
      (declares : Declares index files ids) (inner : Flattens files included)
      (later : Flattens paths others) :
      Flattens (path :: paths) (included ++ ids.map (fun id => ⟨id, index⟩) ++ others)

/-- The steps of loading manifests one after the other, with a stack of the places that are open. -/
inductive Loads : List Path → List Path → Except SetupError (List ManifestEntry) → Prop
  | nil {stack : List Path} : Loads stack [] (.ok [])
  | unreadable {stack paths : List Path} {path : Path} {e : SetupError}
      (read : lib.index path = .error e) : Loads stack (path :: paths) (.error e)
  | cycle {stack paths : List Path} {path : Path} {index : TripleIndex}
      (read : lib.index path = .ok index) (again : lib.place path ∈ stack) :
      Loads stack (path :: paths) (.error (.inclusionCycle (lib.place path)))
  | malformed {stack paths : List Path} {path : Path} {index : TripleIndex} {e : SetupError}
      (read : lib.index path = .ok index) (fresh : lib.place path ∉ stack)
      (includes : includedFiles index = .error e) : Loads stack (path :: paths) (.error e)
  | included {stack paths files : List Path} {path : Path} {index : TripleIndex} {e : SetupError}
      (read : lib.index path = .ok index) (fresh : lib.place path ∉ stack)
      (includes : includedFiles index = .ok files)
      (inner : Loads (lib.place path :: stack) files (.error e)) :
      Loads stack (path :: paths) (.error e)
  | unlisted {stack paths files : List Path} {path : Path} {index : TripleIndex}
      {included : List ManifestEntry} {e : SetupError}
      (read : lib.index path = .ok index) (fresh : lib.place path ∉ stack)
      (includes : includedFiles index = .ok files)
      (inner : Loads (lib.place path :: stack) files (.ok included))
      (entries : ownEntries index = .error e) : Loads stack (path :: paths) (.error e)
  | cons {stack paths files : List Path} {path : Path} {index : TripleIndex}
      {included own : List ManifestEntry} {others : Except SetupError (List ManifestEntry)}
      (read : lib.index path = .ok index) (fresh : lib.place path ∉ stack)
      (includes : includedFiles index = .ok files)
      (inner : Loads (lib.place path :: stack) files (.ok included))
      (entries : ownEntries index = .ok own) (later : Loads stack paths others) :
      Loads stack (path :: paths) (others.map (included ++ own ++ ·))

/-- The manifests of a chain are different places, none of which is open. -/
structure Fresh (stack chain : List Path) : Prop where
  nodup : (chain.map lib.place).Nodup
  closed : ∀ path ∈ chain, lib.place path ∉ stack

/-- No chain of inclusions from a manifest comes back. -/
def NeverReturns (stack : List Path) (path : Path) : Prop :=
  ∀ rest, List.IsChain lib.Includes (path :: rest) → lib.Fresh stack (path :: rest)

variable {lib}

theorem fresh_cons_iff {stack chain : List Path} {path : Path} :
    lib.Fresh stack (path :: chain) ↔
      lib.place path ∉ stack ∧ lib.Fresh (lib.place path :: stack) chain := by
  constructor
  · rintro ⟨nodup, closed⟩
    rw [List.map_cons, List.nodup_cons] at nodup
    refine ⟨closed path (List.mem_cons_self ..), nodup.2, ?_⟩
    intro other hother again
    rcases List.mem_cons.mp again with same | again
    · exact nodup.1 (same ▸ List.mem_map_of_mem hother)
    · exact closed other (List.mem_cons_of_mem _ hother) again
  · rintro ⟨fresh, nodup, closed⟩
    refine ⟨?_, ?_⟩
    · rw [List.map_cons, List.nodup_cons]
      refine ⟨?_, nodup⟩
      intro again
      obtain ⟨other, hother, same⟩ := List.mem_map.mp again
      exact closed other hother (same ▸ List.mem_cons_self ..)
    · intro other hother
      rcases List.mem_cons.mp hother with rfl | hother
      · exact fresh
      · exact fun again => closed other hother (List.mem_cons_of_mem _ again)

/-- The files that a manifest declares are those that it includes. -/
theorem includes_iff {path other : Path} {files : List Path} {index : TripleIndex} {ids : List Term}
    (read : lib.index path = .ok index) (declares : Declares index files ids) :
    lib.Includes path other ↔ other ∈ files := by
  rw [declares.mem_files_iff]
  constructor
  · rintro ⟨index', read', included⟩
    obtain rfl := Except.ok.inj (read.symm.trans read')
    exact included
  · exact fun included => ⟨index, read, included⟩

theorem neverReturns_iff {stack files : List Path} {path : Path} {index : TripleIndex}
    {ids : List Term} (read : lib.index path = .ok index) (declares : Declares index files ids) :
    lib.NeverReturns stack path ↔ lib.place path ∉ stack ∧
      ∀ other ∈ files, lib.NeverReturns (lib.place path :: stack) other := by
  constructor
  · intro never
    refine ⟨(fresh_cons_iff.mp (never [] (List.IsChain.singleton _))).1, ?_⟩
    intro other hother rest chain
    have step := (includes_iff read declares).mpr hother
    exact (fresh_cons_iff.mp (never (other :: rest) (List.isChain_cons_cons.mpr ⟨step, chain⟩))).2
  · rintro ⟨fresh, never⟩ rest chain
    refine fresh_cons_iff.mpr ⟨fresh, ?_⟩
    cases rest with
    | nil => exact ⟨List.nodup_nil, fun _ h => absurd h List.not_mem_nil⟩
    | cons other rest =>
      obtain ⟨step, chain⟩ := List.isChain_cons_cons.mp chain
      exact never other ((includes_iff read declares).mp step) rest chain

theorem Loads.cons_error {stack paths : List Path} {path : Path} {e : SetupError}
    (first : lib.Loads stack [path] (.error e)) : lib.Loads stack (path :: paths) (.error e) := by
  generalize hresult : Except.error e = result at first
  cases first with
  | unreadable read => exact .unreadable read
  | cycle read again => exact .cycle read again
  | malformed read fresh includes => exact .malformed read fresh includes
  | included read fresh includes inner => exact .included read fresh includes inner
  | unlisted read fresh includes inner entries => exact .unlisted read fresh includes inner entries
  | cons read fresh includes inner entries later =>
    cases later
    cases hresult

theorem Loads.cons_ok {stack paths : List Path} {path : Path} {first : List ManifestEntry}
    {others : Except SetupError (List ManifestEntry)} (here : lib.Loads stack [path] (.ok first))
    (later : lib.Loads stack paths others) :
    lib.Loads stack (path :: paths) (others.map (first ++ ·)) := by
  generalize hresult : Except.ok first = result at here
  cases here with
  | unreadable => cases hresult
  | cycle => cases hresult
  | malformed => cases hresult
  | included => cases hresult
  | unlisted => cases hresult
  | cons read fresh includes inner entries nothing =>
    cases nothing
    obtain rfl := Except.ok.inj hresult
    simp only [List.append_nil]
    exact .cons read fresh includes inner entries later

theorem Loads.flattens {stack paths : List Path} {result : Except SetupError (List ManifestEntry)}
    (loads : lib.Loads stack paths result) {entries : List ManifestEntry}
    (ok : result = .ok entries) :
    lib.Flattens paths entries ∧ ∀ path ∈ paths, lib.NeverReturns stack path := by
  induction loads generalizing entries with
  | nil =>
    obtain rfl := Except.ok.inj ok
    exact ⟨.nil, fun _ h => absurd h List.not_mem_nil⟩
  | unreadable => cases ok
  | cycle => cases ok
  | malformed => cases ok
  | included => cases ok
  | unlisted => cases ok
  | @cons stack paths files path index included own others read fresh includes inner entries later
      ih_inner ih_later =>
    cases others with
    | error e => cases ok
    | ok rest =>
      obtain rfl := Except.ok.inj ok
      obtain ⟨ids, rfl, declares⟩ := exists_declares includes entries
      obtain ⟨flattens_inner, never_inner⟩ := ih_inner rfl
      obtain ⟨flattens_later, never_later⟩ := ih_later rfl
      refine ⟨.cons read declares flattens_inner flattens_later, ?_⟩
      intro other hother
      rcases List.mem_cons.mp hother with rfl | hother
      · exact (neverReturns_iff read declares).mpr ⟨fresh, never_inner⟩
      · exact never_later other hother

/-- The steps succeed with the flattening, and when no chain comes back. -/
theorem loads_ok_iff {stack paths : List Path} {entries : List ManifestEntry} :
    lib.Loads stack paths (.ok entries) ↔
      lib.Flattens paths entries ∧ ∀ path ∈ paths, lib.NeverReturns stack path := by
  constructor
  · exact fun loads => loads.flattens rfl
  · rintro ⟨flattens, never⟩
    induction flattens generalizing stack with
    | nil => exact .nil
    | @cons path paths files index ids included others read declares inner later ih_inner ih_later =>
      have here := never path (List.mem_cons_self ..)
      obtain ⟨fresh, never_inner⟩ := (neverReturns_iff read declares).mp here
      obtain ⟨includes, own⟩ := declares_iff.mp declares
      exact .cons read fresh includes (ih_inner never_inner) own
        (ih_later fun other hother => never other (List.mem_cons_of_mem _ hother))

/-- The steps have one result when there is a flattening and no chain comes back. -/
theorem Loads.eq_ok {stack paths : List Path} {result : Except SetupError (List ManifestEntry)}
    {entries : List ManifestEntry} (loads : lib.Loads stack paths result)
    (flattens : lib.Flattens paths entries) (never : ∀ path ∈ paths, lib.NeverReturns stack path) :
    result = .ok entries := by
  induction flattens generalizing stack result with
  | nil =>
    cases loads
    rfl
  | @cons path paths files index ids listed others read declares inner later ih_inner ih_later =>
    have here := never path (List.mem_cons_self ..)
    obtain ⟨fresh, never_inner⟩ := (neverReturns_iff read declares).mp here
    obtain ⟨includes, own⟩ := declares_iff.mp declares
    cases loads with
    | unreadable read' => cases read.symm.trans read'
    | cycle read' again => exact absurd again fresh
    | malformed read' fresh' includes' =>
      cases read.symm.trans read'
      cases includes.symm.trans includes'
    | included read' fresh' includes' inner' =>
      cases read.symm.trans read'
      cases includes.symm.trans includes'
      cases ih_inner inner' never_inner
    | unlisted read' fresh' includes' inner' own' =>
      cases read.symm.trans read'
      cases own.symm.trans own'
    | cons read' fresh' includes' inner' own' later' =>
      cases read.symm.trans read'
      cases includes.symm.trans includes'
      cases own.symm.trans own'
      cases ih_inner inner' never_inner
      cases ih_later later' fun other hother => never other (List.mem_cons_of_mem _ hother)
      rfl

/-- Whatever the steps give, it is the flattening just when no chain comes back. -/
theorem Loads.eq_ok_iff {stack : List Path} {path : Path}
    {result : Except SetupError (List ManifestEntry)} (loads : lib.Loads stack [path] result)
    (entries : List ManifestEntry) :
    result = .ok entries ↔ lib.Flattens [path] entries ∧ lib.NeverReturns stack path := by
  constructor
  · rintro rfl
    obtain ⟨flattens, never⟩ := loads_ok_iff.mp loads
    exact ⟨flattens, never path (List.mem_singleton_self path)⟩
  · rintro ⟨flattens, never⟩
    exact loads.eq_ok flattens fun other same => List.mem_singleton.mp same ▸ never

end Library

end SparqlConformance.Manifest
