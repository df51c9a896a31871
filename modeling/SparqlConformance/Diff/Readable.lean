import SparqlConformance.Diff.Merge
/-!
# Readable scripts

Trades short scripts for readable ones. Kept segments that are no longer than the edits on both sides
become edits, single edits are moved as far towards the end as they go, and what a deletion ends with
and the insertion after it starts with is kept after all.
-/
namespace SparqlConformance.Diff

variable {α : Type}

/-- Lengths of the edits before and after the last kept segment. -/
structure Around where
  deletedBefore : Nat
  insertedBefore : Nat
  deletedAfter : Nat
  insertedAfter : Nat

namespace Around

def zero : Around := ⟨0, 0, 0, 0⟩

def next (a : Around) : Around := ⟨a.deletedAfter, a.insertedAfter, 0, 0⟩

def add (a : Around) (s : Segment α) : Around :=
  match s.edit with
  | .keep => a
  | .delete => { a with deletedAfter := a.deletedAfter + s.items.length }
  | .insert => { a with insertedAfter := a.insertedAfter + s.items.length }

def outweighs (a : Around) (length : Nat) : Bool :=
  length ≤ max a.insertedBefore a.deletedBefore && length ≤ max a.insertedAfter a.deletedAfter

end Around

/-- Takes segments, last first, up to a kept one: what follows it, and the rest that starts with it. -/
def backToKept (after : Script α) : Script α → Script α × Script α
  | [] => (after, [])
  | s :: back => if s.edit = .keep then (after, s :: back) else backToKept (s :: after) back

/-- Turns small kept segments into edits. `back` holds the segments already seen, last first, and
`last` the last kept segment unless it has been looked at. -/
def dissolve (fuel : Nat) (last : Option (List α)) (around : Around) (back : Script α)
    (rest : Script α) : Script α × Bool :=
  match fuel, rest with
  | 0, _ => (back.reverse ++ rest, false)
  | _, [] => (back.reverse, false)
  | fuel + 1, s :: rest =>
    match s.edit with
    | .keep => dissolve fuel (some s.items) around.next (s :: back) rest
    | _ =>
      let around := around.add s
      match last with
      | none => dissolve fuel none around (s :: back) rest
      | some kept =>
        if around.outweighs kept.length then
          let (after, upToKept) := backToKept [] (s :: back)
          let edited := ⟨.delete, kept⟩ :: ⟨.insert, kept⟩ :: (after ++ rest)
          let (between, upToPrevious) := backToKept edited upToKept.tail
          let (unseen, safe) := match upToPrevious with
            | [] => (between, [])
            | previous :: back => backToKept (previous :: between) back
          ((dissolve fuel none .zero safe unseen).1, true)
        else dissolve fuel last around (s :: back) rest

variable [DecidableEq α]

/-- How good a place between two lists is for an edit to start or end. -/
def boundaryScore (before after : List α) : Nat :=
  if before.isEmpty || after.isEmpty then 6 else 1

/-- A single edit between two kept segments. -/
structure Placed (α : Type) where
  before : List α
  edit : List α
  after : List α

namespace Placed

def score (p : Placed α) : Nat := boundaryScore p.before p.edit + boundaryScore p.edit p.after

/-- Moves the edit towards the start as far as it goes. -/
def leftmost (p : Placed α) : Placed α :=
  let shared := commonEnd p.before p.edit
  let n := shared.length
  ⟨p.before.take (p.before.length - n), shared ++ p.edit.take (p.edit.length - n), shared ++ p.after⟩

/-- The best place from a place on towards the end; of equal ones the last. -/
def bestFrom (best : Placed α) (before edit : List α) : List α → Placed α
  | [] => best
  | a :: after =>
    match edit with
    | [] => best
    | e :: edit =>
      if e = a then
        let p : Placed α := ⟨before ++ [e], edit ++ [a], after⟩
        bestFrom (if best.score ≤ p.score then p else best) (before ++ [e]) (edit ++ [a]) after
      else best

def best (p : Placed α) : Placed α :=
  let p := p.leftmost
  bestFrom p p.before p.edit p.after

end Placed

def keptUnlessEmpty (items : List α) : Script α :=
  if items.isEmpty then [] else [⟨.keep, items⟩]

/-- Moves single edits to their best places. -/
def align (fuel : Nat) (script : Script α) : Script α :=
  match fuel, script with
  | fuel + 1, ⟨.keep, before⟩ :: edit :: ⟨.keep, after⟩ :: rest =>
    let p := (⟨before, edit.items, after⟩ : Placed α).best
    if p.before.length = before.length then
      ⟨.keep, before⟩ :: align fuel (edit :: ⟨.keep, after⟩ :: rest)
    else keptUnlessEmpty p.before ++
      ⟨edit.edit, p.edit⟩ :: align fuel (keptUnlessEmpty p.after ++ rest)
  | fuel + 1, s :: rest => s :: align fuel rest
  | _, script => script

/-- Keeps what a deletion and the insertion after it share, if it is at least half of the shorter. -/
def keepOverlaps : Script α → Script α
  | ⟨.delete, d⟩ :: ⟨.insert, i⟩ :: rest =>
    let forward := overlap d i
    let backward := overlap i d
    let shorter := min d.length i.length
    if backward ≤ forward ∧ shorter ≤ 2 * forward then
      ⟨.delete, d.take (d.length - forward)⟩ :: ⟨.keep, i.take forward⟩
        :: ⟨.insert, i.drop forward⟩ :: keepOverlaps rest
    else if forward < backward ∧ shorter ≤ 2 * backward then
      ⟨.insert, i.take (i.length - backward)⟩ :: ⟨.keep, d.take backward⟩
        :: ⟨.delete, d.drop backward⟩ :: keepOverlaps rest
    else ⟨.delete, d⟩ :: ⟨.insert, i⟩ :: keepOverlaps rest
  | s :: rest => s :: keepOverlaps rest
  | [] => []

def readable (script : Script α) : Script α :=
  let n := script.length + 1
  let (script, dissolved) := dissolve (2 * n * n) none .zero [] script
  let script := if dissolved then merge script else script
  keepOverlaps (align (2 * script.length) script)

end SparqlConformance.Diff
