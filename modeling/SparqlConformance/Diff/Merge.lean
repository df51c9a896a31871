import SparqlConformance.Diff.Script
/-!
# Merging

Puts the segments of a script in order without changing what it does. Between two kept segments there
is then at most one deletion and after it one insertion, which have no common beginning or end, and no
edit can be moved over a whole kept segment next to it.
-/
namespace SparqlConformance.Diff

variable {α : Type} [DecidableEq α]

/-- Adds kept items to the script that ends with the given segments, last first. -/
def extendKept (back : Script α) (items : List α) : Script α :=
  match back with
  | ⟨.keep, kept⟩ :: back => ⟨.keep, kept ++ items⟩ :: back
  | _ => ⟨.keep, items⟩ :: back

def editsOf (deleted inserted : List α) : Script α :=
  (if deleted.isEmpty then [] else [⟨.delete, deleted⟩])
    ++ if inserted.isEmpty then [] else [⟨.insert, inserted⟩]

/-- Closes a run of edits, given last first, with a kept segment. -/
def closeRun (back run : Script α) (kept : List α) : Script α :=
  match run with
  | [] => extendKept back kept
  | [edit] => extendKept (edit :: back) kept
  | _ =>
    let edits := run.reverse
    let deleted := Script.old edits
    let inserted := Script.new edits
    let start := commonStart deleted inserted
    let deleted := deleted.drop start.length
    let inserted := inserted.drop start.length
    let stop := commonEnd deleted inserted
    let deleted := deleted.take (deleted.length - stop.length)
    let inserted := inserted.take (inserted.length - stop.length)
    let back := if start.isEmpty then back else extendKept back start
    extendKept ((editsOf deleted inserted).reverse ++ back) (stop ++ kept)

/-- Merges the runs of edits of a script. -/
def mergeRuns (back run : Script α) : Script α → Script α
  | [] =>
    match closeRun back run [] with
    | ⟨_, []⟩ :: back => back.reverse
    | back => back.reverse
  | ⟨.keep, kept⟩ :: rest => mergeRuns (closeRun back run kept) [] rest
  | edit :: rest => mergeRuns back (edit :: run) rest

/-- Moves single edits over whole kept segments beside them, and tells whether there were any. -/
def slide : Script α → Script α × Bool
  | ⟨.keep, before⟩ :: edit :: ⟨.keep, after⟩ :: rest =>
    if before.isSuffixOf edit.items then
      let moved := before ++ edit.items.take (edit.items.length - before.length)
      (⟨edit.edit, moved⟩ :: (slide (⟨.keep, before ++ after⟩ :: rest)).1, true)
    else if after.isPrefixOf edit.items then
      let moved := edit.items.drop after.length ++ after
      (⟨.keep, before ++ after⟩ :: (slide (⟨edit.edit, moved⟩ :: rest)).1, true)
    else
      let (script, moved) := slide (edit :: ⟨.keep, after⟩ :: rest)
      (⟨.keep, before⟩ :: script, moved)
  | s :: rest =>
    let (script, moved) := slide rest
    (s :: script, moved)
  | [] => ([], false)
termination_by s => s.length

def mergeWith (fuel : Nat) (script : Script α) : Script α :=
  match fuel with
  | 0 => script
  | fuel + 1 =>
    if script.isEmpty then []
    else
      let (script, moved) := slide (mergeRuns [] [] script)
      if moved then mergeWith fuel script else script

/-- Merges until no edit moves any more. -/
def merge (script : Script α) : Script α :=
  mergeWith (script.foldl (fun n s => n + s.items.length) (script.length + 2)) script

end SparqlConformance.Diff
