import SparqlConformance.Text.CharClass
import SparqlConformance.Text.Lines
/-!
# Labels and language tags

Which texts may name a blank node, and which are well-formed language tags by the grammar of RFC 5646.
-/
namespace SparqlConformance

open Text

def isLabelStart (c : Char) : Bool := isNameBase c || c == '_' || c == ':' || c.isDigit

def isLabelChar (c : Char) : Bool := isNameChar c || c == ':' || c == '.'

/-- Labels of blank nodes: a dot may stand inside, but not at the end. -/
def isBlankLabel (s : List Char) : Bool :=
  match s with
  | [] => false
  | c :: r => isLabelStart c && r.all isLabelChar && s.getLast? != some '.'

/-- Names of variables, without the mark in front of them. -/
def isVariableName (s : List Char) : Bool :=
  match s with
  | [] => false
  | c :: r => isLabelStart c && r.all fun c => isNameChar c && c != '-'

namespace LanguageTag

/-- Tags that were registered before the grammar and stay valid, in lower case. -/
def registered : List String :=
  ["art-lojban", "cel-gaulish", "en-gb-oed", "i-ami", "i-bnn", "i-default", "i-enochian", "i-hak",
   "i-klingon", "i-lux", "i-mingo", "i-navajo", "i-pwn", "i-tao", "i-tay", "i-tsu", "no-bok",
   "no-nyn", "sgn-be-fr", "sgn-be-nl", "sgn-ch-de", "zh-guoyu", "zh-hakka", "zh-min", "zh-min-nan",
   "zh-xiang"]

/-- What the subtags read so far allow next. -/
inductive Stage
  | extended (count : Nat)
  | script
  | region
  | variant
  | extension (needed : Bool)
  | privateUse (needed : Bool)
  deriving DecidableEq, Repr

namespace Stage

def takesScript : Stage → Bool
  | extended _ | script => true
  | _ => false

def takesRegion : Stage → Bool
  | extended _ | script | region => true
  | _ => false

def takesVariant : Stage → Bool
  | extended _ | script | region | variant => true
  | _ => false

def isComplete : Stage → Bool
  | extension n | privateUse n => !n
  | _ => true

/-- The stage after one more subtag, if it may stand here. -/
def next (stage : Stage) (s : List Char) : Option Stage :=
  if s.isEmpty || 8 < s.length then none
  else match stage with
  | privateUse _ => if s.all Char.isAlphanum then some (privateUse false) else none
  | _ =>
    if s == ['x'] || s == ['X'] then
      if stage == extension true then none else some (privateUse true)
    else if s.length == 1 && s.all Char.isAlphanum then
      if stage == extension true then none else some (extension true)
    else match stage with
    | extension _ => if s.all Char.isAlphanum then some (extension false) else none
    | _ =>
      match stage, s.length == 3 && s.all Char.isAlpha with
      | extended n, true => if n < 3 then some (extended (n + 1)) else none
      | _, _ =>
        if stage.takesScript && s.length == 4 && s.all Char.isAlpha then some region
        else if stage.takesRegion
            && ((s.length == 2 && s.all Char.isAlpha) || (s.length == 3 && s.all Char.isDigit)) then
          some variant
        else if stage.takesVariant
            && ((5 ≤ s.length && (s.take 1).all Char.isAlpha)
              || (4 ≤ s.length && (s.take 1).all Char.isDigit)) then
          some variant
        else none

end Stage

def start (s : List Char) : Option Stage :=
  if s.length < 2 || 8 < s.length || !s.all Char.isAlpha then none
  else if s.length < 4 then some (.extended 0) else some .script

/-- The subtags of an ordinary tag in their order. -/
def isOrdinary (s : List Char) : Bool :=
  match splitAt '-' s with
  | [] => false
  | p :: ps =>
    match start p with
    | none => false
    | some stage => (ps.foldlM Stage.next stage).any Stage.isComplete

def isPrivate (s : List Char) : Bool :=
  match s with
  | x :: '-' :: r => (x == 'x' || x == 'X') && !r.isEmpty
  | _ => false

def isWellFormed (s : List Char) : Bool :=
  if registered.contains (String.ofList (s.map Char.toLower)) then true
  else if isPrivate s then s.all fun c => c.isAlphanum || c == '-'
  else isOrdinary s

end LanguageTag

end SparqlConformance
