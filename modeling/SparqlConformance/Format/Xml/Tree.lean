/-!
# XML trees

Elements with their attributes and their content, and their indented text: each tag of an element
without text stands on a line of its own. All characters that could be taken for markup are written as
entities, so no text can end an attribute or an element.
-/
namespace SparqlConformance.Xml

structure Tag where
  name : String
  attributes : List (String × String)
  deriving DecidableEq, Repr, Inhabited

inductive Tree
  | empty (tag : Tag)
  | text (tag : Tag) (content : String)
  | nested (tag : Tag) (children : List Tree)
  deriving Repr, Inhabited

def escapeChar (c : Char) : List Char :=
  match c with
  | '<' => "&lt;".toList
  | '>' => "&gt;".toList
  | '&' => "&amp;".toList
  | '\'' => "&apos;".toList
  | '"' => "&quot;".toList
  | c => [c]

def escaped (s : String) : List Char := s.toList.flatMap escapeChar

def renderAttribute (a : String × String) : List Char :=
  ' ' :: a.1.toList ++ '=' :: '"' :: escaped a.2 ++ ['"']

/-- What stands between the brackets of a start tag. -/
def Tag.render (t : Tag) : List Char := t.name.toList ++ t.attributes.flatMap renderAttribute

def newLine (depth : Nat) : List Char := '\n' :: List.replicate (2 * depth) ' '

def opened (t : Tag) : List Char := '<' :: t.render ++ ['>']

def closed (t : Tag) : List Char := '<' :: '/' :: t.name.toList ++ ['>']

mutual

/-- An element with the line breaks in front of its tags. -/
def Tree.render (depth : Nat) : Tree → List Char
  | .empty tag => newLine depth ++ '<' :: tag.render ++ ['/', '>']
  | .text tag content => newLine depth ++ opened tag ++ escaped content ++ closed tag
  | .nested tag children =>
    newLine depth ++ opened tag ++ renderAll (depth + 1) children ++ newLine depth ++ closed tag

def renderAll (depth : Nat) : List Tree → List Char
  | [] => []
  | t :: ts => t.render depth ++ renderAll depth ts

end

def declaration : List Char := "<?xml version=\"1.0\" encoding=\"UTF-8\"?>".toList

/-- A document: the declaration, the root element and a line feed. -/
def document (root : Tree) : String := String.ofList (declaration ++ root.render 0 ++ ['\n'])

end SparqlConformance.Xml
