import SparqlConformance.Text.Lines
/-!
# Paths

Paths are texts with slashes. Their components leave out empty parts and single dots, except for a dot
at the start of a relative path, but the text of a path stays as it was written.
-/
namespace SparqlConformance

structure Path where
  text : String
  deriving DecidableEq, Repr, Inhabited, Hashable

instance : Coe String Path := ⟨Path.mk⟩

namespace Path

open Text

/-- A path cut at its slashes, after the root or the dot that it starts with. -/
structure Parts where
  start : List Char
  pieces : List (List Char)
  deriving DecidableEq, Repr

def isAbsolute (p : Path) : Bool := p.text.toList.head? == some '/'

def parts (p : Path) : Parts :=
  match p.text.toList with
  | '/' :: r => ⟨['/'], splitAt '/' r⟩
  | ['.'] => ⟨['.'], []⟩
  | '.' :: '/' :: r => ⟨['.'], splitAt '/' ('/' :: r)⟩
  | s => ⟨[], splitAt '/' s⟩

/-- Parts that name nothing. -/
def isIdle (piece : List Char) : Bool := piece.isEmpty || piece == ['.']

/-- The components after the root. -/
def names (p : Path) : List (List Char) :=
  let parts := p.parts
  (if parts.start == ['.'] then [['.']] else []) ++ parts.pieces.filter fun s => !isIdle s

def ofParts (parts : Parts) : Path :=
  ⟨String.ofList (parts.start ++ join ['/'] parts.pieces)⟩

def dropIdle (pieces : List (List Char)) : List (List Char) :=
  (pieces.reverse.dropWhile isIdle).reverse

/-- The path without its last component; a root has none. -/
def parent? (p : Path) : Option Path :=
  let parts := p.parts
  match dropIdle parts.pieces with
  | [] => if parts.start == ['.'] then some ⟨""⟩ else none
  | pieces => some (ofParts ⟨parts.start, dropIdle pieces.dropLast⟩)

/-- The last component, unless it leads upwards. -/
def fileName? (p : Path) : Option (List Char) :=
  let parts := p.parts
  match (dropIdle parts.pieces).getLast? with
  | some name => if name == ['.', '.'] then none else some name
  | none => none

/-- A file name before and after its last dot; a dot at the start does not count. -/
def cutExtension (name : List Char) : List Char × Option (List Char) :=
  match cutFirst '.' name.reverse with
  | some (e, s) => if s.isEmpty then (name, none) else (s.reverse, some e.reverse)
  | none => (name, none)

def fileStem? (p : Path) : Option String :=
  p.fileName?.map fun name => String.ofList (cutExtension name).1

def extension? (p : Path) : Option String :=
  p.fileName?.bind fun name => (cutExtension name).2.map String.ofList

/-- Replaces the extension of the last component. -/
def withExtension (p : Path) (extension : String) : Path :=
  match p.fileName? with
  | none => p
  | some name =>
    let parts := p.parts
    let stem := (cutExtension name).1
    let last := if extension.isEmpty then stem else stem ++ '.' :: extension.toList
    ofParts ⟨parts.start, (dropIdle parts.pieces).dropLast ++ [last]⟩

/-- The path from one place to another; an absolute path stays. -/
def join (base p : Path) : Path :=
  if p.isAbsolute then p
  else
    let b := base.text.toList
    if b.isEmpty || b.getLast? == some '/' then ⟨base.text ++ p.text⟩
    else ⟨base.text ++ "/" ++ p.text⟩

/-- Whether two paths have the same components. -/
def same (p q : Path) : Bool := p.isAbsolute == q.isAbsolute && p.names == q.names

end Path

end SparqlConformance
