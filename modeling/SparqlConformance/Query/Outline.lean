import SparqlConformance.Query.Blanking
import SparqlConformance.Text.WordChar
/-!
# Query outlines

The form of a query and whether its solutions are ordered, as far as keywords tell. The first keyword
of a form decides; a query without one counts as a selection.
-/
namespace SparqlConformance

inductive QueryForm
  | select
  | construct
  | describe
  | ask
  deriving DecidableEq, Repr, Inhabited

namespace QueryForm

def returnsGraph : QueryForm → Bool
  | construct | describe => true
  | select | ask => false

end QueryForm

namespace Query

/-- Whether a character is a letter of a keyword, in either case. The long s and the Kelvin sign fold
to letters too. -/
def isLetter (letter c : Char) : Bool :=
  c == letter || c == letter.toUpper || (letter == 's' && c == 'ſ') || (letter == 'k' && c == '\u212A')

/-- What follows a keyword at the start of a text, and the keyword as it is written there. -/
def cutKeyword : List Char → List Char → Option (List Char × List Char)
  | [], s => some ([], s)
  | _ :: _, [] => none
  | k :: ks, c :: cs =>
    if isLetter k c then (cutKeyword ks cs).map fun (word, rest) => (c :: word, rest) else none

def startsWithWord (s : List Char) : Bool := s.head?.any Text.isWordChar

/-- The form that a text starts with. Forms are named by ASCII letters; a keyword that matches with
another character counts as a selection. -/
def formAt? (s : List Char) : Option QueryForm :=
  let found (word : String) (form : QueryForm) : Option QueryForm :=
    match cutKeyword word.toList s with
    | some (written, rest) =>
      if startsWithWord rest then none
      else some (if written.map Char.toLower = word.toList then form else .select)
    | none => none
  (found "select" .select).or <| (found "construct" .construct).or <|
    (found "describe" .describe).or (found "ask" .ask)

def ordersAt (s : List Char) : Bool :=
  match cutKeyword "order".toList s with
  | some (_, c :: rest) =>
    Text.isSpace c && match cutKeyword "by".toList (Text.trimStart rest) with
      | some (_, rest) => !startsWithWord rest
      | none => false
  | _ => false

/-- The first answer at a place where a word may start; `inWord` says whether the character before
belongs to a word. -/
def findWord {α : Type} (at? : List Char → Option α) (inWord : Bool) : List Char → Option α
  | [] => none
  | c :: r =>
    match if inWord then none else at? (c :: r) with
    | some a => some a
    | none => findWord at? (Text.isWordChar c) r

end Query

structure QueryOutline where
  form : QueryForm
  ordered : Bool
  deriving DecidableEq, Repr, Inhabited

/-- The outline of a query; keywords in IRIs, strings and comments do not count. -/
def QueryOutline.ofText (text : String) : QueryOutline :=
  let s := Query.blanked text.toList
  { form := (Query.findWord Query.formAt? false s).getD .select
    ordered := (Query.findWord (fun s => if Query.ordersAt s then some () else none) false s).isSome }

end SparqlConformance
