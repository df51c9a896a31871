import SparqlConformance.Machine.FileTree
import SparqlConformance.Text.Utf8
/-!
# Machines

The state of a machine in memory: its files, its clock, and the streams through which programs pass text to
each other. Programs handle undecoded text.
-/
namespace SparqlConformance

/-- Where a program reads from or writes to. -/
inductive Channel
  | stream (n : Nat)
  | file (p : Place)
  | nothing
  deriving DecidableEq, Repr, Inhabited

/-- How a program ended. A program that runs for too long is ended from outside. -/
inductive Ending
  | exit (code : Nat)
  | killed (process signal : Nat)
  | expired
  deriving DecidableEq, Repr, Inhabited

/-- Text in the pieces in which it was written, the last one first. -/
abbrev Stream := List (List Char)

def Stream.text (s : Stream) : List Char := s.reverse.flatten

structure Machine where
  tree : FileTree
  /-- Where a run starts from. -/
  home : Place
  /-- In microseconds. -/
  clock : Nat
  /-- When the running program is ended. -/
  deadline : Option Nat
  streams : Array Stream
  /-- The number of processes and temporary files so far. -/
  count : Nat
  interrupted : Bool
  deriving Repr, Inhabited

namespace Machine

def newStream (m : Machine) (s : Stream) : Nat × Machine :=
  (m.streams.size, { m with streams := m.streams.push s })

def nextNumber (m : Machine) : Nat × Machine := (m.count, { m with count := m.count + 1 })

def streamText (m : Machine) (n : Nat) : List Char := (m.streams.getD n []).text

def fileText (m : Machine) (p : Place) : List Char :=
  match m.tree.find? p with
  | some (.file content _) => Utf8.undecoded content
  | _ => []

def write (m : Machine) (c : Channel) (s : List Char) : Machine :=
  match c with
  | .stream n => { m with streams := m.streams.modify n (s :: ·) }
  | .file p =>
    match m.tree.find? p with
    | some (.file content executable) =>
      { m with tree := m.tree.put p (.file (content ++ Utf8.bytesOf s) executable) }
    | _ => m
  | .nothing => m

/-- What can still be read from a channel, all at once. -/
def readAll (m : Machine) (c : Channel) : List Char × Machine :=
  match c with
  | .stream n => (m.streamText n, { m with streams := m.streams.modify n fun _ => [] })
  | .file p => (m.fileText p, m)
  | .nothing => ([], m)

/-- The next line of a channel, without its end; none when nothing is left. -/
def readLine (m : Machine) (c : Channel) : Option (List Char × Machine) :=
  let s := (m.readAll c).1
  if s.isEmpty then none
  else
    let rest := (s.dropWhile (· != '\n')).drop 1
    let m := match c with
      | .stream n => { m with streams := m.streams.modify n fun _ => [rest] }
      | _ => m
    some (s.takeWhile (· != '\n'), m)

/-- Lets time pass, but not beyond the deadline. -/
def sleep (m : Machine) (microseconds : Nat) : Ending × Machine :=
  let wake := m.clock + microseconds
  match m.deadline with
  | some d => if wake < d then (.exit 0, { m with clock := wake }) else (.expired, { m with clock := d })
  | none => (.exit 0, { m with clock := wake })

/-- A program that does not end waits for the deadline. -/
def hang (m : Machine) : Machine := { m with clock := m.deadline.getD m.clock }

end Machine

end SparqlConformance
