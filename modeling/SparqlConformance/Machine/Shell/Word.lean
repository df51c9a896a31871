import SparqlConformance.Text.Lines
/-!
# Words

The words of shell scripts as they are written: quoted and unquoted text, variables, outputs of scripts and
numbers. Scripts in words are kept as text and are read when they are needed.
-/
namespace SparqlConformance.Shell

/-- What becomes of the value of a variable. With `ifEmpty` an empty value counts as none. -/
inductive Change
  | keep
  | length
  | default (ifEmpty : Bool)
  | assign (ifEmpty : Bool)
  | complain (ifEmpty : Bool)
  | instead (ifEmpty : Bool)
  | trim (atEnd longest : Bool)
  /-- There is no such change. -/
  | unknown
  deriving DecidableEq, Repr, Inhabited

inductive Part
  | text (quoted : Bool) (s : List Char)
  | variable (quoted : Bool) (name : List Char) (change : Change) (operand : List Char)
  | output (quoted : Bool) (script : List Char)
  | number (quoted : Bool) (expression : List Char)
  deriving DecidableEq, Repr, Inhabited

abbrev Word := List Part

/-- How a text is read: as one word of a script, as an operand, or as a document. Quotes mean nothing in
documents, and in quoted operands double quotes end and begin what is quoted. -/
inductive WordMode
  | word
  | operand
  | quotedOperand
  | document
  deriving DecidableEq, Repr

def isMeta (c : Char) : Bool := " \t\n;&|<>()".toList.contains c

def isNameStart (c : Char) : Bool := c.isAlpha || c == '_'

def isNameRest (c : Char) : Bool := c.isAlphanum || c == '_'

def isName (s : List Char) : Bool :=
  match s with
  | c :: r => isNameStart c && r.all isNameRest
  | [] => false

def isSpecial (c : Char) : Bool := c.isDigit || "@*#?-$!".toList.contains c

/-- What a character opens within something that another one closes. -/
def opened (top c : Char) : List Char :=
  if c = '"' then ['"']
  else if c = '`' then ['`']
  else if c = '\'' && top != '"' then ['\'']
  else if c = '(' && top != '"' && top != '}' then [')']
  else []

/-- What stands before the end of a bracketed text and after it. The stack holds the characters that close
what is open. -/
def cutClosed : List Char → List Char → Option (List Char × List Char)
  | _, [] => none
  | [], s => some ([], s)
  | '\'' :: stack, '\'' :: r =>
    if stack.isEmpty then some ([], r) else (cutClosed stack r).map fun (a, b) => ('\'' :: a, b)
  | '\'' :: stack, c :: r => (cutClosed ('\'' :: stack) r).map fun (a, b) => (c :: a, b)
  | stack, '\\' :: c :: r => (cutClosed stack r).map fun (a, b) => ('\\' :: c :: a, b)
  | stack, '$' :: '{' :: r => (cutClosed ('}' :: stack) r).map fun (a, b) => ('$' :: '{' :: a, b)
  | stack, '$' :: '(' :: r => (cutClosed (')' :: stack) r).map fun (a, b) => ('$' :: '(' :: a, b)
  | top :: stack, c :: r =>
    if c = top then
      if stack.isEmpty then some ([], r) else (cutClosed stack r).map fun (a, b) => (c :: a, b)
    else (cutClosed (opened top c ++ top :: stack) r).map fun (a, b) => (c :: a, b)

/-- The change that an operator after the name of a variable asks for, and its operand. -/
def changeOf? (s : List Char) : Option (Change × List Char) :=
  match s with
  | [] => some (.keep, [])
  | '#' :: '#' :: r => some (.trim false true, r)
  | '#' :: r => some (.trim false false, r)
  | '%' :: '%' :: r => some (.trim true true, r)
  | '%' :: r => some (.trim true false, r)
  | ':' :: '-' :: r => some (.default true, r)
  | '-' :: r => some (.default false, r)
  | ':' :: '=' :: r => some (.assign true, r)
  | '=' :: r => some (.assign false, r)
  | ':' :: '?' :: r => some (.complain true, r)
  | '?' :: r => some (.complain false, r)
  | ':' :: '+' :: r => some (.instead true, r)
  | '+' :: r => some (.instead false, r)
  | _ => none

/-- The name at the start of a text. -/
def cutName (s : List Char) : List Char × List Char :=
  match s with
  | c :: r =>
    if isNameStart c then (c :: r.takeWhile isNameRest, r.dropWhile isNameRest)
    else if c.isDigit then (c :: r.takeWhile Char.isDigit, r.dropWhile Char.isDigit)
    else if isSpecial c then ([c], r)
    else ([], s)
  | [] => ([], [])

/-- What stands between the braces of a variable. -/
def bracedVariable (quoted : Bool) (s : List Char) : Part :=
  let plain (s : List Char) : Part :=
    let (name, rest) := cutName s
    let (change, operand) := (changeOf? rest).getD (.unknown, [])
    .variable quoted name (if name.isEmpty then .unknown else change) operand
  match s with
  | '#' :: r =>
    let (name, rest) := cutName r
    if !name.isEmpty && rest.isEmpty then .variable quoted name .length [] else plain s
  | s => plain s

/-- What a dollar sign begins; without any of this it stands for itself. -/
def afterDollar (quoted : Bool) (s : List Char) : Option (Part × List Char) :=
  match s with
  | '(' :: '(' :: r =>
    match cutClosed [')'] r with
    | some (inside, ')' :: rest) => some (.number quoted inside, rest)
    | _ => none
  | '(' :: r => (cutClosed [')'] r).map fun (script, rest) => (.output quoted script, rest)
  | '{' :: r =>
    (cutClosed ['}'] r).map fun (inside, rest) => (bracedVariable quoted inside, rest)
  | c :: r =>
    if isNameStart c then
      let (name, rest) := cutName (c :: r)
      some (.variable quoted name .keep [], rest)
    else if isSpecial c then some (.variable quoted [c] .keep [], r)
    else some (.text quoted ['$'], c :: r)
  | [] => some (.text quoted ['$'], [])

/-- The script between backquotes, in which some characters are escaped. -/
def unescaped : List Char → List Char
  | '\\' :: c :: r =>
    if c = '`' || c = '\\' || c = '$' then c :: unescaped r else '\\' :: unescaped (c :: r)
  | c :: r => c :: unescaped r
  | [] => []

/-- Puts text in front of a word. -/
def consText (quoted : Bool) (s : List Char) (w : Word) : Word :=
  match w with
  | .text q t :: rest =>
    if q == quoted then .text q (s ++ t) :: rest else .text quoted s :: .text q t :: rest
  | w => .text quoted s :: w

/-- Whether a backslash in quotes keeps a character from its meaning. -/
def isEscapable (mode : WordMode) (c : Char) : Bool :=
  c == '$' || c == '`' || c == '\\' || (c == '"' && mode != .document)
    || (c == '\x7d' && mode == .quotedOperand)

/-- The parts of a word, and what follows it. -/
def readParts (mode : WordMode) : Nat → Bool → List Char → Option (Word × List Char)
  | _, quoted, [] =>
    if quoted && mode != .document && mode != .quotedOperand then none else some ([], [])
  | 0, _, _ => none
  | fuel + 1, quoted, c :: r =>
    let go (quoted : Bool) (r : List Char) := readParts mode fuel quoted r
    let next (part : Part) (r : List Char) := (go quoted r).map fun (w, rest) => (part :: w, rest)
    let nextText (quotedText : Bool) (s r : List Char) :=
      (go quoted r).map fun (w, rest) => (consText quotedText s w, rest)
    if c = '"' && mode != .document then
      (go (!quoted) r).map fun (w, rest) => (consText true [] w, rest)
    else if c = '\'' && !quoted && mode != .document then
      (Text.cutFirst '\'' r).bind fun (s, r) => nextText true s r
    else if c = '\\' then
      match r with
      | '\n' :: r => go quoted r
      | d :: r =>
        if !quoted || isEscapable mode d then nextText true [d] r else nextText true ['\\', d] r
      | [] => nextText quoted ['\\'] []
    else if c = '$' then (afterDollar quoted r).bind fun (part, r) => next part r
    else if c = '`' then
      (cutClosed ['`'] r).bind fun (script, r) => next (.output quoted (unescaped script)) r
    else if mode = .word && !quoted && isMeta c then some ([], c :: r)
    else nextText quoted [c] r

/-- The word at the start of a text; none if something stays open. -/
def readWord (s : List Char) : Option (Word × List Char) := readParts .word (s.length + 1) false s

/-- A whole text as an operand. -/
def operandWord (quoted : Bool) (s : List Char) : Word :=
  ((readParts (if quoted then .quotedOperand else .operand) (s.length + 1) quoted s).map Prod.fst).getD
    [.text true s]

/-- A whole text as a document. -/
def documentWord (s : List Char) : Word :=
  ((readParts .document (s.length + 1) true s).map Prod.fst).getD [.text true s]

end SparqlConformance.Shell
