import SparqlConformance.Machine.Shell.Word
/-!
# Scripts

Shell scripts as they are read: commands, and what joins them.
-/
namespace SparqlConformance.Shell

inductive RedirectKind
  | read
  | write
  | append
  | copy
  /-- The text of the target is read. -/
  | document
  deriving DecidableEq, Repr, Inhabited

structure Redirect where
  channel : Nat
  kind : RedirectKind
  target : Word
  deriving DecidableEq, Repr, Inhabited

inductive Command
  /-- Assignments and words, and the line they stand on. -/
  | simple (line : Nat) (assignments : List (List Char × Word)) (words : List Word)
  | redirected (c : Command) (redirects : List Redirect)
  | pipeline (cs : List Command)
  | negated (c : Command)
  | both (first second : Command)
  | either (first second : Command)
  | sequence (cs : List Command)
  | subshell (c : Command)
  | background (c : Command)
  | branch (condition yes no : Command)
  /-- Runs the body for as long as the condition succeeds, or fails. -/
  | repeated (onSuccess : Bool) (condition body : Command)
  /-- Runs the body for each word, or for each argument. -/
  | each (name : List Char) (words : Option (List Word)) (body : Command)
  | choose (word : Word) (cases : List (List Word × Command))
  | define (name : List Char) (body : Command)
  deriving Repr, Inhabited

namespace Script

/-- Reads something from the start of a script, and gives the rest of it. -/
abbrev Reader (α : Type) := List Char → Option (α × List Char)

def newLines (s : List Char) : Nat := (s.filter (· == '\n')).length

/-- Skips blanks, continued lines, and a comment. -/
def skipBlank : List Char → List Char
  | ' ' :: r | '\t' :: r => skipBlank r
  | '\\' :: '\n' :: r => skipBlank r
  | '#' :: r => r.dropWhile (· != '\n')
  | s => s

/-- Skips blanks, comments and line ends. -/
def skipLines : List Char → List Char
  | ' ' :: r | '\t' :: r | '\n' :: r => skipLines r
  | '\\' :: '\n' :: r => skipLines r
  | '#' :: r => skipComment r
  | s => s
where
  skipComment : List Char → List Char
    | '\n' :: r => skipLines r
    | _ :: r => skipComment r
    | [] => []

def reserved : List String :=
  ["!", "\x7b", "\x7d", "case", "do", "done", "elif", "else", "esac", "fi", "for", "if", "in", "then",
    "until", "while"]

/-- Words that end a list of commands. -/
def closing : List String := ["\x7d", "do", "done", "elif", "else", "esac", "fi", "then"]

/-- The unquoted word at the start of a text. -/
def bareWord (s : List Char) : List Char := s.takeWhile fun c => !isMeta c

def startsWord (word : String) (s : List Char) : Bool := bareWord s == word.toList

/-- What follows a reserved word. -/
def expectWord (word : String) (s : List Char) : Option (List Char) :=
  let s := skipLines s
  if startsWord word s then some (s.drop word.length) else none

/-- Whether no further command can stand at the start of a text. -/
def endsList (s : List Char) : Bool :=
  match s with
  | [] | ')' :: _ | ';' :: ';' :: _ => true
  | s => closing.any fun w => startsWord w s

/-- Cuts a document out of the lines that follow the current one. -/
def cutDocument (delimiter : List Char) (tabs : Bool) (s : List Char) : List Char × List Char :=
  let line := s.takeWhile (· != '\n')
  let below := (s.dropWhile (· != '\n')).drop 1
  let strip (l : List Char) := if tabs then l.dropWhile (· == '\t') else l
  let lines := (Text.splitAt '\n' below).map strip
  let body := lines.takeWhile (· != delimiter)
  let after := lines.drop (body.length + 1)
  (body.flatMap (· ++ ['\n']), line ++ '\n' :: Text.join ['\n'] after)

/-- The text of a word in which everything is quoted. -/
def wordText (w : Word) : List Char :=
  w.flatMap fun
    | .text _ s => s
    | _ => []

def isQuotedWord (w : Word) : Bool :=
  w.any fun
    | .text quoted _ => quoted
    | _ => false

/-- The redirection at the start of a text. -/
def readRedirect : Reader Redirect := fun s =>
  let digits := s.takeWhile Char.isDigit
  let rest := s.drop digits.length
  let number (usual : Nat) : Nat := if digits.isEmpty then usual else (String.ofList digits).toNat?.getD usual
  let target (kind : RedirectKind) (usual : Nat) (r : List Char) :=
    (readWord (skipBlank r)).bind fun (w, rest) =>
      if w.isEmpty then none else some (⟨number usual, kind, w⟩, rest)
  let document (tabs : Bool) (r : List Char) :=
    (readWord (skipBlank r)).map fun (w, rest) =>
      let (body, rest) := cutDocument (wordText w) tabs rest
      (⟨number 0, .document, if isQuotedWord w then [.text true body] else documentWord body⟩, rest)
  match rest with
  | '<' :: '<' :: '-' :: r => document true r
  | '<' :: '<' :: r => document false r
  | '<' :: '&' :: r => target .copy 0 r
  | '<' :: r => target .read 0 r
  | '>' :: '>' :: r => target .append 1 r
  | '>' :: '&' :: r => target .copy 1 r
  | '>' :: '|' :: r => target .write 1 r
  | '>' :: r => target .write 1 r
  | _ => none

/-- Whether a redirection starts here; a number belongs to it when nothing stands between. -/
def startsRedirect (s : List Char) : Bool :=
  match s.dropWhile Char.isDigit with
  | '<' :: _ | '>' :: _ => true
  | _ => false

def readRedirects : Nat → Reader (List Redirect)
  | 0, s => some ([], s)
  | fuel + 1, s =>
    let s := skipBlank s
    if startsRedirect s then
      (readRedirect s).bind fun (r, s) => (readRedirects fuel s).map fun (rs, s) => (r :: rs, s)
    else some ([], s)

/-- The variable and the value of a word that is an assignment. -/
def assignment? (s : List Char) : Option (List Char × List Char) :=
  match Text.cutFirst '=' (bareWord s) with
  | some (name, _) => if isName name then some (name, s.drop (name.length + 1)) else none
  | none => none

/-- The parts of a simple command. -/
structure Pieces where
  assignments : List (List Char × Word)
  words : List Word
  redirects : List Redirect

def readPieces : Nat → Pieces → Reader Pieces
  | 0, _, _ => none
  | fuel + 1, p, s =>
    let s := skipBlank s
    if startsRedirect s then
      (readRedirect s).bind fun (r, s) => readPieces fuel { p with redirects := p.redirects ++ [r] } s
    else match s with
    | [] => some (p, [])
    | c :: _ =>
      if isMeta c then some (p, s)
      else match if p.words.isEmpty then assignment? s else none with
      | some (name, s) =>
        (readWord s).bind fun (w, s) =>
          readPieces fuel { p with assignments := p.assignments ++ [(name, w)] } s
      | none =>
        (readWord s).bind fun (w, s) => readPieces fuel { p with words := p.words ++ [w] } s

def redirect (c : Command) (rs : List Redirect) : Command :=
  if rs.isEmpty then c else .redirected c rs

/-- The function that a definition at the start of a text is about. -/
def definition? (s : List Char) : Option (List Char × List Char) :=
  let name := s.takeWhile isNameRest
  if !isName name then none
  else match skipBlank (s.drop name.length) with
    | '(' :: r =>
      match skipBlank r with
      | ')' :: r => some (name, skipLines r)
      | _ => none
    | _ => none

/-- The patterns of a case, up to the closing parenthesis. -/
def readPatterns : Nat → Reader (List Word)
  | 0, _ => none
  | fuel + 1, s =>
    (readWord (skipBlank s)).bind fun (w, s) =>
      match skipBlank s with
      | '|' :: s => (readPatterns fuel s).map fun (ws, s) => (w :: ws, s)
      | ')' :: s => some ([w], s)
      | _ => none

/-- Words up to the end of a line or a semicolon. -/
def readWords : Nat → Reader (List Word)
  | 0, _ => none
  | fuel + 1, s =>
    match skipBlank s with
    | [] => some ([], [])
    | c :: r =>
      if isMeta c then some ([], c :: r)
      else (readWord (c :: r)).bind fun (w, s) => (readWords fuel s).map fun (ws, s) => (w :: ws, s)

/-! What contains lists of commands is read with a reader of such lists. -/

section compound

variable (list : Reader Command)

def listThen (word : String) : Reader Command := fun s =>
  (list s).bind fun (c, s) => (expectWord word s).map fun s => (c, s)

/-- What follows `then`: the commands, and what is to be done otherwise. -/
def readBranch : Nat → Reader Command
  | 0, _ => none
  | fuel + 1, s => do
    let (condition, s) ← listThen list "then" s
    let (yes, s) ← list s
    match expectWord "fi" s, expectWord "else" s, expectWord "elif" s with
    | some s, _, _ => some (.branch condition yes (.sequence []), s)
    | _, some s, _ =>
      let (no, s) ← listThen list "fi" s
      some (.branch condition yes no, s)
    | _, _, some s =>
      let (no, s) ← readBranch fuel s
      some (.branch condition yes no, s)
    | _, _, _ => none

def readRepeated (onSuccess : Bool) : Reader Command := fun s => do
  let (condition, s) ← listThen list "do" s
  let (body, s) ← listThen list "done" s
  some (.repeated onSuccess condition body, s)

def readEach : Reader Command := fun s => do
  let s := skipBlank s
  let name := s.takeWhile isNameRest
  if !isName name then none
  let s := skipLines (s.drop name.length)
  let (words, s) ←
    if startsWord "in" s then (readWords s.length (s.drop 2)).map fun (ws, s) => (some ws, s)
    else some (none, s)
  let s := skipBlank s
  let s ← expectWord "do" (if s.head? == some ';' then s.drop 1 else s)
  let (body, s) ← listThen list "done" s
  some (.each name words body, s)

def readCases : Nat → Reader (List (List Word × Command))
  | 0, _ => none
  | fuel + 1, s => do
    let s := skipLines s
    match expectWord "esac" s with
    | some s => some ([], s)
    | none =>
      let (patterns, s) ← readPatterns s.length (if s.head? == some '(' then s.drop 1 else s)
      let (body, s) ← list s
      let s := skipLines s
      let s := match s with
        | ';' :: ';' :: s => s
        | s => s
      let (rest, s) ← readCases fuel s
      some ((patterns, body) :: rest, s)

def readChoose : Reader Command := fun s => do
  let (word, s) ← readWord (skipBlank s)
  let s ← expectWord "in" s
  let (cases, s) ← readCases list (s.length + 1) s
  some (.choose word cases, s)

/-- A compound command at the start of a text; the outer result says whether there is one. -/
def compound? (s : List Char) : Option (Option (Command × List Char)) :=
  let after (word : String) := s.drop word.length
  if s.head? == some '(' then
    some ((list (s.drop 1)).bind fun (c, s) =>
      match skipLines s with
      | ')' :: s => some (.subshell c, s)
      | _ => none)
  else if startsWord "\x7b" s then some (listThen list "\x7d" (after "\x7b"))
  else if startsWord "if" s then some (readBranch list (s.length + 1) (after "if"))
  else if startsWord "while" s then some (readRepeated list true (after "while"))
  else if startsWord "until" s then some (readRepeated list false (after "until"))
  else if startsWord "for" s then some (readEach list (after "for"))
  else if startsWord "case" s then some (readChoose list (after "case"))
  else none

/-- One command; lines are counted from the end of the script. -/
def readCommand (lineOf : List Char → Nat) : Reader Command := fun s => do
  let withRedirects (c : Command) (s : List Char) : Option (Command × List Char) :=
    (readRedirects s.length s).map fun (rs, s) => (redirect c rs, s)
  match compound? list s with
  | some none => none
  | some (some (c, s)) => withRedirects c s
  | none =>
    match definition? s with
    | some (name, body) =>
      match compound? list body with
      | some (some (c, s)) =>
        (withRedirects c s).map fun (c, s) => (.define name c, s)
      | _ => none
    | none =>
      if closing.any fun w => startsWord w s then none
      let (p, rest) ← readPieces (s.length + 1) ⟨[], [], []⟩ s
      if p.assignments.isEmpty && p.words.isEmpty && p.redirects.isEmpty then none
      else some (redirect (.simple (lineOf s) p.assignments p.words) p.redirects, rest)

def readPiped (lineOf : List Char → Nat) : Nat → Reader (List Command)
  | 0, _ => none
  | fuel + 1, s =>
    (readCommand list lineOf (skipLines s)).bind fun (c, s) =>
      match skipBlank s with
      | '|' :: '|' :: r => some ([c], '|' :: '|' :: r)
      | '|' :: r => (readPiped lineOf fuel r).map fun (cs, s) => (c :: cs, s)
      | s => some ([c], s)

def readPipeline (lineOf : List Char → Nat) : Reader Command := fun s =>
  let s := skipLines s
  let negated := startsWord "!" s
  (readPiped list lineOf (s.length + 1) (if negated then s.drop 1 else s)).map fun (cs, s) =>
    let c := match cs with
      | [c] => c
      | cs => .pipeline cs
    (if negated then .negated c else c, s)

/-- Pipelines joined by `&&` and `||`, which bind alike. -/
def readJoined (lineOf : List Char → Nat) : Nat → Command → Reader Command
  | 0, _, _ => none
  | fuel + 1, c, s =>
    match skipBlank s with
    | '&' :: '&' :: r =>
      (readPipeline list lineOf r).bind fun (d, s) => readJoined lineOf fuel (.both c d) s
    | '|' :: '|' :: r =>
      (readPipeline list lineOf r).bind fun (d, s) => readJoined lineOf fuel (.either c d) s
    | s => some (c, s)

def readItems (lineOf : List Char → Nat) : Nat → Reader (List Command)
  | 0, _ => none
  | fuel + 1, s =>
    let s := skipLines s
    if endsList s then some ([], s)
    else do
      let (c, s) ← readPipeline list lineOf s
      let (c, s) ← readJoined list lineOf (s.length + 1) c s
      let more (c : Command) (s : List Char) :=
        (readItems lineOf fuel s).map fun (cs, s) => (c :: cs, s)
      match skipBlank s with
      | ';' :: ';' :: r => some ([c], ';' :: ';' :: r)
      | ';' :: r => more c r
      | '&' :: r => more (.background c) r
      | '\n' :: r => more c r
      | s => if endsList s then some ([c], s) else none

end compound

/-- A list of commands; the bound is on how deep lists contain lists. -/
def readList (lineOf : List Char → Nat) : Nat → Reader Command
  | 0, _ => none
  | fuel + 1, s =>
    (readItems (readList lineOf fuel) lineOf (s.length + 1) s).map fun (cs, s) => (.sequence cs, s)

end Script

/-- A script: the commands of its lines up to the first one that is not well formed, the number of that
line, and what is wrong there. -/
structure Script where
  commands : List Command
  fault : Option (Nat × String)
  deriving Repr, Inhabited

namespace Script

/-- The commands of one line, which goes on until all that it opens is closed. -/
def readLine (list : Reader Command) (lineOf : List Char → Nat) : Nat → Reader (List Command)
  | 0, _ => none
  | fuel + 1, s =>
    let s := skipBlank s
    if s.isEmpty || s.head? == some '\n' then some ([], s)
    else if endsList s then none
    else do
      let (c, s) ← readPipeline list lineOf s
      let (c, s) ← readJoined list lineOf (s.length + 1) c s
      match skipBlank s with
      | ';' :: ';' :: _ => none
      | ';' :: r => (readLine list lineOf fuel r).map fun (cs, s) => (c :: cs, s)
      | '&' :: r => (readLine list lineOf fuel r).map fun (cs, s) => (.background c :: cs, s)
      | [] => some ([c], [])
      | '\n' :: r => some ([c], r)
      | _ => none

/-- The operator or reserved word at the start of a text, which does not fit there. -/
def misplaced? (s : List Char) : Option String :=
  (["&&", "||", ";;", "&", "|", ";", ")"].find? fun op => (Text.stripStart op.toList s).isSome).or
    (closing.find? fun w => startsWord w s)

/-- What is wrong with a line that can not be read. -/
def faultOf (s : List Char) : String :=
  let second := match s.dropWhile fun c => !";&|)\n".toList.contains c with
    | ';' :: r => if (skipBlank r).head? = some ';' then some ";" else none
    | ')' :: _ => some ")"
    | _ => none
  match (misplaced? s).or (if s.contains '(' then none else second) with
  | some w => "Syntax error: \"" ++ w ++ "\" unexpected"
  | none => "Syntax error: end of file unexpected"

def readLines (list : Reader Command) (lineOf : List Char → Nat) : Nat → List Char → Script
  | 0, _ => ⟨[], none⟩
  | fuel + 1, s =>
    let s := skipLines s
    if s.isEmpty then ⟨[], none⟩
    else match readLine list lineOf (s.length + 1) s with
    | some (cs, s) =>
      let rest := readLines list lineOf fuel s
      { rest with commands := cs ++ rest.commands }
    | none => ⟨[], some (lineOf s, faultOf s)⟩

end Script

def readScript (s : List Char) : Script :=
  let total := Script.newLines s
  let lineOf (rest : List Char) : Nat := total - Script.newLines rest + 1
  Script.readLines (Script.readList lineOf (s.length + 1)) lineOf (s.length + 1) s

end SparqlConformance.Shell
