import SparqlConformance.Text.Space
/-!
# Blanking

Takes out of a query what could be mistaken for keywords. IRIs and string literals become one space
each, and after that so do comments. A token that is never closed stays as it is, character by
character.
-/
namespace SparqlConformance.Query

def isIriChar (c : Char) : Bool := !Text.isSpace c && !"<>\"{}|^`\\".toList.contains c

/-- The length of the rest of an IRI, its closing bracket included. -/
def iriLength? : List Char → Option Nat
  | [] => none
  | c :: r => if c = '>' then some 1 else if isIriChar c then (iriLength? r).map (· + 1) else none

/-- The length of the rest of a string between single quotes of one kind. -/
def shortLength? (quote : Char) : List Char → Option Nat
  | [] => none
  | c :: r =>
    if c = quote then some 1
    else if c = '\n' then none
    else if c = '\\' then
      match r with
      | [] => none
      | _ :: r => (shortLength? quote r).map (· + 2)
    else (shortLength? quote r).map (· + 1)

/-- The length of the rest of a string between triple quotes. A quote inside of it takes the next
character with it, whatever that is. -/
def longLength? (quote : Char) : List Char → Option Nat
  | [] => none
  | c :: r =>
    if c = quote ∧ r.take 2 = [quote, quote] then some 3
    else if c = quote then
      match r with
      | [] => none
      | d :: r => if d = quote then none else (longLength? quote r).map (· + 2)
    else if c = '\\' then
      match r with
      | [] => none
      | _ :: r => (longLength? quote r).map (· + 2)
    else (longLength? quote r).map (· + 1)

/-- The length of a string that starts with a quote; triple quotes are tried first. -/
def stringLength? (quote : Char) (s : List Char) : Option Nat :=
  let long := if s.take 2 = [quote, quote] then (longLength? quote (s.drop 2)).map (· + 3) else none
  long.or ((shortLength? quote s).map (· + 1))

/-- The length of the IRI or string at the start of a text. -/
def tokenLength? : List Char → Option Nat
  | '<' :: r => (iriLength? r).map (· + 1)
  | '"' :: r => stringLength? '"' r
  | '\'' :: r => stringLength? '\'' r
  | _ => none

/-- Blanks IRIs and strings; `skip` characters still belong to the last one. -/
def blankTokens (skip : Nat) : List Char → List Char
  | [] => []
  | c :: r =>
    match skip with
    | k + 1 => blankTokens k r
    | 0 =>
      match tokenLength? (c :: r) with
      | some n => ' ' :: blankTokens (n - 1) r
      | none => c :: blankTokens 0 r

/-- Blanks comments; `inside` says whether one is being read. -/
def blankComments (inside : Bool) : List Char → List Char
  | [] => []
  | c :: r =>
    if c = '\n' then '\n' :: blankComments false r
    else if inside then blankComments true r
    else if c = '#' then ' ' :: blankComments true r
    else c :: blankComments false r

/-- A query without its IRIs, strings and comments. -/
def blanked (s : List Char) : List Char := blankComments false (blankTokens 0 s)

end SparqlConformance.Query
