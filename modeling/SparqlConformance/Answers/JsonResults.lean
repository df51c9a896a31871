import SparqlConformance.Answers.Decoded
import SparqlConformance.Format.Json.Event
/-!
# Results in JSON

Reads results from the events of a JSON text, in the order in which they come. A truth value answers at
once, and so does a list of variables after the solutions; what follows then does not matter. Members
that are not known are skipped, except in terms.
-/
namespace SparqlConformance.JsonResults

open Json (Event)

/-- What follows the value at the start of a sequence, inside of some arrays and objects. -/
def skipValue (depth : Nat) : List Event → Option (List Event)
  | [] => none
  | e :: rest =>
    match e with
    | .beginArray | .beginObject => skipValue (depth + 1) rest
    | .endArray | .endObject => if depth ≤ 1 then some rest else skipValue (depth - 1) rest
    | .fault => none
    | _ => if depth = 0 then some rest else skipValue depth rest

inductive TermKind
  | iri
  | blank
  | literal
  deriving DecidableEq, Repr

structure TermParts where
  kind : Option TermKind
  value : Option String
  language : Option String
  datatype : Option String
  deriving DecidableEq, Repr

namespace TermParts

def none : TermParts := ⟨.none, .none, .none, .none⟩

def set? (p : TermParts) (name value : String) : Option TermParts :=
  match name with
  | "type" =>
    match value with
    | "uri" => some { p with kind := some .iri }
    | "bnode" => some { p with kind := some .blank }
    | "literal" | "typed-literal" => some { p with kind := some .literal }
    | _ => .none
  | "value" => some { p with value := some value }
  | "xml:lang" => some { p with language := some value }
  | "datatype" => (iriTerm? value).map fun _ => { p with datatype := some value }
  | _ => .none

def term? (p : TermParts) : Option Term :=
  match p.kind, p.value with
  | some .iri, some v => iriTerm? v
  | some .blank, some v => blankTerm? v
  | some .literal, some v => (literalOf? v p.language p.datatype).map .literal
  | _, _ => .none

end TermParts

/-- The members of a term, and what follows it. -/
def readTerm (p : TermParts) : List Event → Option (Term × List Event)
  | .endObject :: rest => p.term?.map fun t => (t, rest)
  | .key name :: .string value :: rest =>
    match p.set? name value with
    | some p => readTerm p rest
    | none => none
  | _ => none

/-- The members of a solution, and what follows it. -/
def readSolution (fuel : Nat) (events : List Event) : Option (List Binding × List Event) :=
  match fuel, events with
  | _, .endObject :: rest => some ([], rest)
  | fuel + 1, .key name :: .beginObject :: rest =>
    match readTerm .none rest with
    | some (t, rest) =>
      (readSolution fuel rest).map fun (cells, rest) => ((name, t) :: cells, rest)
    | none => none
  | _, _ => none

/-- The items of an array of solutions, and what follows it. -/
def readSolutions (fuel : Nat) (events : List Event) : Option (List (List Binding) × List Event) :=
  match fuel, events with
  | _, .endArray :: rest => some ([], rest)
  | fuel + 1, .beginObject :: rest =>
    match readSolution rest.length rest with
    | some (cells, rest) =>
      (readSolutions fuel rest).map fun (rows, rest) => (cells :: rows, rest)
    | none => none
  | _, _ => none

/-- The strings of an array, and what follows it. -/
def readStrings : List Event → Option (List String × List Event)
  | .endArray :: rest => some ([], rest)
  | .string s :: rest => (readStrings rest).map fun (ss, rest) => (s :: ss, rest)
  | _ => none

/-- What has been read so far. -/
structure Progress where
  vars : Option (List String)
  solutions : Option (List (List Binding))

/-- The solutions, if they bind declared variables only. -/
def finish? (vars : List String) (rows : List (List Binding)) : Option Decoded :=
  if rows.all fun cells => cells.all fun c => vars.contains c.1 then
    some (.ofRows vars rows)
  else none

/-- An answer, or how far the reading has come and what is left. -/
abbrev Step := Except Decoded (Progress × List Event)

/-- The members of the head. -/
def readHead (fuel : Nat) (p : Progress) (events : List Event) : Option Step :=
  match fuel, events with
  | _, .endObject :: rest => some (.ok (p, rest))
  | fuel + 1, .key "vars" :: .beginArray :: rest =>
    match readStrings rest with
    | none => none
    | some (names, rest) =>
      match names.foldlM declareNew? (p.vars.getD []) with
      | none => none
      | some vars =>
        match p.solutions with
        | some rows => (finish? vars rows).map .error
        | none => readHead fuel { p with vars := some vars } rest
  | fuel + 1, .key "link" :: .beginArray :: rest =>
    (readStrings rest).bind fun (_, rest) => readHead fuel p rest
  | fuel + 1, .key name :: rest =>
    if name = "vars" ∨ name = "link" then none
    else (skipValue 0 rest).bind (readHead fuel p)
  | _, _ => none

/-- Skips members up to the end of an object. -/
def skipMembers (fuel : Nat) (events : List Event) : Option (List Event) :=
  match fuel, events with
  | _, .endObject :: rest => some rest
  | fuel + 1, .key _ :: rest => (skipValue 0 rest).bind (skipMembers fuel)
  | _, _ => none

/-- The members of the results. Once the variables are known the solutions are the answer, if nothing
goes wrong up to the end of the text. -/
def readResults (fuel : Nat) (p : Progress) (events : List Event) : Option Step :=
  match fuel, events with
  | _, .key "bindings" :: .beginArray :: rest =>
    match readSolutions rest.length rest with
    | none => none
    | some (rows, rest) =>
      match p.vars with
      | some vars =>
        if rest.contains .fault then none else (finish? vars rows).map .error
      | none =>
        (skipMembers rest.length rest).map fun rest =>
          .ok ({ p with solutions := some (p.solutions.getD [] ++ rows) }, rest)
  | fuel + 1, .key name :: rest =>
    if name = "bindings" then none else (skipValue 0 rest).bind (readResults fuel p)
  | _, _ => none

/-- The members of the document. -/
def readMembers (fuel : Nat) (p : Progress) (events : List Event) : Option Decoded :=
  match fuel, events with
  | _, .key "boolean" :: .bool b :: _ => some (.truth b)
  | fuel + 1, .key "head" :: .beginObject :: rest =>
    match readHead rest.length p rest with
    | some (.error answer) => some answer
    | some (.ok (p, rest)) => readMembers fuel p rest
    | none => none
  | fuel + 1, .key "results" :: .beginObject :: rest =>
    match readResults rest.length p rest with
    | some (.error answer) => some answer
    | some (.ok (p, rest)) => readMembers fuel p rest
    | none => none
  | fuel + 1, .key name :: rest =>
    if name = "boolean" ∨ name = "head" ∨ name = "results" then none
    else (skipValue 0 rest).bind (readMembers fuel p)
  | _, _ => none

def read? : List Event → Option Decoded
  | .beginObject :: rest => readMembers rest.length ⟨none, none⟩ rest
  | _ => none

end SparqlConformance.JsonResults

namespace SparqlConformance

/-- Reads results in JSON from undecoded text; a byte order mark may stand in front. -/
def readJsonResults (content : List Char) : Except AnswerError Decoded :=
  let mark := Utf8.undecoded [0xEF, 0xBB, 0xBF]
  let content := if mark.isPrefixOf content then content.drop mark.length else content
  Decoded.ofOption (JsonResults.read? (Json.events content))

end SparqlConformance
