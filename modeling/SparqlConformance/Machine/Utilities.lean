import SparqlConformance.Machine.State
import SparqlConformance.Number.Power
import SparqlConformance.Text.CharClass
import SparqlConformance.Text.Lines
/-!
# Utilities

The programs that a machine knows without a script, except for the shell.
-/
namespace SparqlConformance

/-- The call of a utility: what it is called in messages, its operands, and what it works with. -/
structure UtilityCall where
  label : String
  args : List (List Char)
  place : Place
  input : Channel
  output : Channel
  errors : Channel
  deriving DecidableEq, Repr, Inhabited

namespace UtilityCall

variable (c : UtilityCall) (m : Machine)

def print (s : List Char) : Machine := m.write c.output s

/-- Prints a message about a problem. -/
def complain (message : String) : Machine :=
  m.write c.errors (Utf8.rawOf (c.label ++ ": " ++ message ++ "\n"))

/-- Characters for which a name is put into quotes in messages. -/
def needsQuotes (s : List Char) : Bool :=
  s.isEmpty || s.any fun ch => " !\"$&()*;<=>?[\\^`|".toList.contains ch

/-- A name as messages show it. -/
def shownName (s : List Char) : String :=
  if needsQuotes s then "'" ++ Utf8.textOfRaw s ++ "'" else Utf8.textOfRaw s

def path (s : List Char) : Path := ⟨Utf8.textOfRaw s⟩

def node? (s : List Char) : Option FileNode := m.tree.node? c.place (path s)

def number? (s : List Char) : Option Nat :=
  Text.unsigned? 10 Text.decimalDigit? s

/-- The content of an operand, or what is wrong with it. -/
def content (s : List Char) : Except String (List Char) :=
  match c.node? m s with
  | some (.file bytes _) => .ok (Utf8.undecoded bytes)
  | some (.utility _) => .ok []
  | some .directory => .error "Is a directory"
  | none => .error "No such file or directory"

/-! ## cat, pwd, sleep -/

def catOne (s : List Char) : Bool × Machine :=
  if s = ['-'] then
    let (text, m) := m.readAll c.input
    (true, c.print m text)
  else match c.content m s with
    | .ok text => (true, c.print m text)
    | .error e => (false, c.complain m s!"{shownName s}: {e}")

def cat : Ending × Machine :=
  let operands := c.args.filter fun s => s = ['-'] || s.head? != some '-'
  let (ok, m) := (if operands.isEmpty then [['-']] else operands).foldl
    (fun (ok, m) s =>
      let (done, m) := c.catOne m s
      (ok && done, m)) (true, m)
  (.exit (if ok then 0 else 1), m)

def pwd : Ending × Machine :=
  (.exit 0, c.print m (Utf8.rawOf ((FileTree.pathOf c.place).text ++ "\n")))

/-- A time with decimals, and maybe a unit, in microseconds. -/
def time? (s : List Char) : Option Nat :=
  let (s, unit) := match s.reverse with
    | 's' :: r => (r.reverse, 1)
    | 'm' :: r => (r.reverse, 60)
    | 'h' :: r => (r.reverse, 3600)
    | _ => (s, 1)
  let (whole, part) := (Text.cutFirst '.' s).getD (s, [])
  if whole.isEmpty && part.isEmpty then none
  else do
    let w ← if whole.isEmpty then some 0 else number? whole
    let p ← number? ((part ++ List.replicate 6 '0').take 6)
    some ((w * 1000000 + p) * unit)

def moreAboutSleep : String := "Try 'sleep --help' for more information."

def sleep : Ending × Machine :=
  match c.args.mapM time? with
  | some (t :: ts) => m.sleep ((t :: ts).foldl (· + ·) 0)
  | some [] => (.exit 1, c.complain m ("missing operand\n" ++ moreAboutSleep))
  | none =>
    let bad := (c.args.find? fun s => (time? s).isNone).getD []
    (.exit 1, c.complain m (s!"invalid time interval '{Utf8.textOfRaw bad}'\n" ++ moreAboutSleep))

/-! ## ls -/

def isShown (options : List Char) (name : String) : Bool :=
  options.contains 'a' || options.contains 'A' || name.toList.head? != some '.'

def listing (options : List Char) (place : Place) : List Char :=
  let dots := if options.contains 'a' then [".", ".."] else []
  (dots ++ (m.tree.children place).filter (isShown options)).flatMap fun name =>
    Utf8.rawOf (name ++ "\n")

def lsDirectories (options : List Char) (headed : Bool) : List (List Char) → List Char
  | [] => []
  | [s] => one s
  | s :: ss => one s ++ ['\n'] ++ lsDirectories options headed ss
where
  one (s : List Char) : List Char :=
    (if headed then s ++ [':', '\n'] else [])
      ++ ((m.tree.locate? c.place (path s)).map (listing m options)).getD []

def ls : Ending × Machine :=
  let options := (c.args.filter fun s => s.head? == some '-').flatMap fun s => s.drop 1
  let operands := c.args.filter fun s => s.head? != some '-'
  let operands := if operands.isEmpty then [['.']] else operands
  let (found, missing) := operands.partition fun s => (c.node? m s).isSome
  let (directories, files) :=
    found.partition fun s => c.node? m s == some .directory && !options.contains 'd'
  let m := missing.foldl (fun m s =>
    c.complain m s!"cannot access '{Utf8.textOfRaw s}': No such file or directory") m
  let gap := if files.isEmpty || directories.isEmpty then [] else ['\n']
  let text := files.flatMap (· ++ ['\n']) ++ gap
    ++ lsDirectories c m options (1 < operands.length) directories
  (.exit (if missing.isEmpty then 0 else 2), c.print m text)

/-! ## tail -/

/-- How much `tail` prints, and of what. -/
structure TailRequest where
  bytes : Bool
  fromStart : Bool
  amount : Nat
  operands : List (List Char)

def amount (r : TailRequest) (s : List Char) : TailRequest :=
  match s with
  | '+' :: s => { r with fromStart := true, amount := (number? s).getD 0 - 1 }
  | '-' :: s => { r with amount := (number? s).getD 0 }
  | s => { r with amount := (number? s).getD 0 }

def tailRequest (r : TailRequest) : List (List Char) → TailRequest
  | ['-', 'c'] :: s :: rest => tailRequest (amount { r with bytes := true } s) rest
  | ['-', 'n'] :: s :: rest => tailRequest (amount r s) rest
  | ('-' :: 'c' :: s) :: rest => tailRequest (amount { r with bytes := true } s) rest
  | ('-' :: 'n' :: s) :: rest => tailRequest (amount r s) rest
  | ('-' :: d :: s) :: rest =>
    if d.isDigit then tailRequest (amount r (d :: s)) rest else tailRequest r rest
  | s :: rest => tailRequest { r with operands := r.operands ++ [s] } rest
  | [] => r

/-- The lines of a text with their ends. -/
def wholeLines (s : List Char) : List (List Char) :=
  let pieces := Text.splitAt '\n' s
  let ended := pieces.dropLast.map (· ++ ['\n'])
  match pieces.getLast? with
  | some [] | none => ended
  | some last => ended ++ [last]

def lastPart {α : Type} (r : TailRequest) (xs : List α) : List α :=
  if r.fromStart then xs.drop r.amount else xs.drop (xs.length - r.amount)

def tailText (r : TailRequest) (s : List Char) : List Char :=
  if r.bytes then lastPart r s else (lastPart r (wholeLines s)).flatten

/-- The ends of files; several files have headers with their names. -/
def tailFiles (r : TailRequest) (first : Bool) : Machine → List (List Char) → Bool × Machine
  | m, [] => (true, m)
  | m, s :: rest =>
    match c.content m s with
    | .ok text =>
      let header := if r.operands.length < 2 then []
        else (if first then [] else ['\n']) ++ "==> ".toList ++ s ++ " <==\n".toList
      tailFiles r false (c.print m (header ++ tailText r text)) rest
    | .error e =>
      let (_, m) := tailFiles r first
        (c.complain m s!"cannot open '{Utf8.textOfRaw s}' for reading: {e}") rest
      (false, m)

def tail : Ending × Machine :=
  let r := tailRequest ⟨false, false, 10, []⟩ c.args
  if r.operands.isEmpty then
    let (s, m) := m.readAll c.input
    (.exit 0, c.print m (tailText r s))
  else
    let (ok, m) := c.tailFiles r true m r.operands
    (.exit (if ok then 0 else 1), m)

/-! ## echo and printf -/

/-- The character that octal digits stand for, and what follows them. -/
def octal (most : Nat) (s : List Char) : Char × List Char :=
  let digits := (s.take most).takeWhile fun c => '0' ≤ c && c ≤ '7'
  (Char.ofNat (digits.foldl (fun n d => 8 * n + (d.toNat - 48)) 0 % 256), s.drop digits.length)

def simpleEscape? : Char → Option Char
  | 'a' => some '\x07'
  | 'b' => some '\x08'
  | 'f' => some '\x0c'
  | 'n' => some '\n'
  | 'r' => some '\r'
  | 't' => some '\t'
  | 'v' => some '\x0b'
  | '\\' => some '\\'
  | _ => none

/-- Resolves escapes; the flag tells whether the output goes on, which `\c` ends. `zeroOctal` asks for a
zero in front of octal digits. -/
def escaped (zeroOctal : Bool) : Nat → List Char → List Char × Bool
  | 0, s => (s, true)
  | _, [] => ([], true)
  | fuel + 1, '\\' :: c :: r =>
    let cons (s : List Char) (rest : List Char) : List Char × Bool :=
      let (t, goesOn) := escaped zeroOctal fuel rest
      (s ++ t, goesOn)
    if c = 'c' then ([], false)
    else match simpleEscape? c with
      | some x => cons [x] r
      | none =>
        if zeroOctal && c = '0' then
          let (x, rest) := octal 3 r
          cons [x] rest
        else if !zeroOctal && '0' ≤ c && c ≤ '7' then
          let (x, rest) := octal 3 (c :: r)
          cons [x] rest
        else if !zeroOctal && c = '"' then cons ['"'] r
        else cons ['\\', c] r
  | fuel + 1, c :: r =>
    let (t, goesOn) := escaped zeroOctal fuel r
    (c :: t, goesOn)

def echo : Ending × Machine :=
  let (newLine, args) := match c.args with
    | ['-', 'n'] :: rest => (false, rest)
    | args => (true, args)
  let s := Text.join [' '] args
  let (text, goesOn) := escaped true (s.length + 1) s
  (.exit 0, c.print m (if newLine && goesOn then text ++ ['\n'] else text))

/-- A piece of a format: text, or a place for an argument. Without a width there is another argument that
gives it. -/
inductive FormatItem
  | text (s : List Char)
  | argument (flags : List Char) (width : Option Nat) (precision : Option Nat) (kind : Char)
  deriving Repr

/-- What a percent sign begins. -/
def directive (s : List Char) : Option (FormatItem × List Char) :=
  let flags := s.takeWhile fun c => "-0+ #".toList.contains c
  let s := s.drop flags.length
  let (width, s) := match s with
    | '*' :: s => (none, s)
    | s => (some ((number? (s.takeWhile Char.isDigit)).getD 0), s.dropWhile Char.isDigit)
  let (precision, s) := match s with
    | '.' :: r =>
      (some ((number? (r.takeWhile Char.isDigit)).getD 0), r.dropWhile Char.isDigit)
    | s => (none, s)
  match s with
  | [] => none
  | k :: r =>
    some (.argument flags width precision k, r)

def formatItems : Nat → List Char → List FormatItem
  | 0, _ | _, [] => []
  | fuel + 1, '%' :: '%' :: r => .text ['%'] :: formatItems fuel r
  | fuel + 1, '%' :: r =>
    match directive r with
    | some (item, r) => item :: formatItems fuel r
    | none => [.text ['%']]
  | fuel + 1, c :: r => .text [c] :: formatItems fuel r

def padded (flags : List Char) (numeric : Bool) (width : Nat) (s : List Char) : List Char :=
  let fill := List.replicate (width - s.length)
  if flags.contains '-' then s ++ fill ' '
  else match numeric && flags.contains '0', s with
    | true, '-' :: r => '-' :: fill '0' ++ r
    | true, s => fill '0' ++ s
    | false, s => fill ' ' ++ s

def integer? (s : List Char) : Option Int :=
  match Text.trim s with
  | '-' :: r => if r.head? = some '+' then none else (number? r).map fun n => -Int.ofNat n
  | s => (number? s).map Int.ofNat

def integer (s : List Char) : Int := (integer? s).getD 0

/-- The number that an argument starts with, and what is wrong with the argument. -/
def leadingInteger (s : List Char) : Int × Option String :=
  let body := Text.trimStart s
  let (sign, body) : Int × List Char := match body with
    | '-' :: r => (-1, r)
    | '+' :: r => (1, r)
    | r => (1, r)
  let (base, digits) := match body with
    | '0' :: 'x' :: r | '0' :: 'X' :: r => (16, r)
    | '0' :: r => (8, '0' :: r)
    | r => (10, r)
  let inBase (d : Char) : Bool := (Text.hexDigit? d).any fun n => n < base
  let run := digits.takeWhile inBase
  let value := Int.ofNat ((Text.foldDigits base Text.hexDigit? 0 run).getD 0)
  let fault :=
    if s.isEmpty || (!run.isEmpty && run.length == digits.length) then none
    else if run.isEmpty then some s!"{Utf8.textOfRaw s}: expected numeric value"
    else some s!"{Utf8.textOfRaw s}: not completely converted"
  (sign * value, fault)

def isNumeric (kind : Char) : Bool := "diuoxX".toList.contains kind

/-- An argument as a directive shows it. -/
def shown (flags : List Char) (kind : Char) (precision : Option Nat) (s : List Char) : List Char :=
  let value := (leadingInteger s).1
  let digits (base : Nat) := Nat.toDigits base (value % twoTo 64).toNat
  let sign := if value < 0 then [] else if flags.contains '+' then ['+']
    else if flags.contains ' ' then [' '] else []
  match kind with
  | 'd' | 'i' => sign ++ (toString value).toList
  | 'u' => digits 10
  | 'o' => digits 8
  | 'x' => digits 16
  | 'X' => (digits 16).map Char.toUpper
  | 'c' => s.take 1
  | 'b' => (escaped true (s.length + 1) s).1
  | _ => match precision with
    | some n => s.take n
    | none => s

/-- What a format makes of arguments: text, what was wrong with them, and those that are left. -/
structure Formatted where
  text : List Char
  faults : List String
  rest : List (List Char)

/-- One pass over a format. -/
def formatOnce : List FormatItem → List (List Char) → Formatted
  | [], args => ⟨[], [], args⟩
  | .text s :: items, args =>
    let f := formatOnce items args
    { f with text := s ++ f.text }
  | .argument flags width precision kind :: items, args =>
    let (width, args) := match width with
      | some n => (n, args)
      | none => ((leadingInteger (args.headD [])).1.toNat, args.tail)
    let arg := args.headD []
    let f := formatOnce items args.tail
    let faults := if isNumeric kind then (leadingInteger arg).2.toList else []
    ⟨padded flags (isNumeric kind) width (shown flags kind precision arg) ++ f.text,
      faults ++ f.faults, f.rest⟩

/-- Uses a format until no arguments are left. -/
def formatAll : Nat → List FormatItem → List (List Char) → List Char × List String
  | 0, _, _ => ([], [])
  | fuel + 1, items, args =>
    let f := formatOnce items args
    if f.rest.isEmpty || f.rest.length == args.length then (f.text, f.faults)
    else
      let (text, faults) := formatAll fuel items f.rest
      (f.text ++ text, f.faults ++ faults)

def printf : Ending × Machine :=
  match c.args with
  | [] | [['-', '-']] => (.exit 2, c.complain m "usage: printf format [arg ...]")
  | ['-', '-'] :: format :: args | format :: args =>
    let format := (escaped false (format.length + 1) format).1
    let (text, faults) := formatAll (args.length + 1) (formatItems (format.length + 1) format) args
    (.exit (if faults.isEmpty then 0 else 1), faults.foldl c.complain (c.print m text))

/-! ## test -/

def fileTest (option : Char) (s : List Char) : Bool :=
  let node := c.node? m s
  match option with
  | 'f' => (match node with | some (.file ..) | some (.utility _) => true | _ => false)
  | 'd' => node == some .directory
  | 'e' | 'r' | 'w' => node.isSome
  | 'x' => node == some .directory || FileTree.isExecutable node
  | 's' => (match node with | some (.file bytes _) => !bytes.isEmpty | some _ => true | none => false)
  | _ => false

def unaryTest (option : Char) (s : List Char) : Bool :=
  match option with
  | 'n' => !s.isEmpty
  | 'z' => s.isEmpty
  | 'o' => false
  | option => c.fileTest m option s

def isOption (s : List Char) : Option Char :=
  match s with
  | ['-', o] => if o.isAlpha then some o else none
  | _ => none

def binaryTest? (operator : String) (a b : List Char) : Option Bool :=
  match operator with
  | "=" | "==" => some (a == b)
  | "!=" => some (a != b)
  | "<" => some (decide (a < b))
  | ">" => some (decide (b < a))
  | "-eq" => some (integer a == integer b)
  | "-ne" => some (integer a != integer b)
  | "-lt" => some (integer a < integer b)
  | "-le" => some (integer a ≤ integer b)
  | "-gt" => some (integer a > integer b)
  | "-ge" => some (integer a ≥ integer b)
  | _ => none

/-- A test and what follows it; none if it is not well formed. `-a` binds tighter than `-o`, and both less
than `!`. -/
def alternatives? : Nat → List (List Char) → Option (Bool × List (List Char))
  | 0, _ => none
  | fuel + 1, args =>
    match conjunction args.length.succ args with
    | some (a, ['-', 'o'] :: rest) => (alternatives? fuel rest).map fun (b, rest) => (a || b, rest)
    | answer => answer
where
  conjunction : Nat → List (List Char) → Option (Bool × List (List Char))
    | 0, _ => none
    | fuel + 1, args =>
      match primary args with
      | some (a, ['-', 'a'] :: rest) => (conjunction fuel rest).map fun (b, rest) => (a && b, rest)
      | answer => answer
  primary : List (List Char) → Option (Bool × List (List Char))
    | [] => some (false, [])
    | [a] => some (!a.isEmpty, [])
    | a :: b :: rest =>
      match rest.head?.bind (binaryTest? (Utf8.textOfRaw b) a) with
      | some answer => some (answer, rest.tail)
      | none =>
        if a = ['!'] then (primary (b :: rest)).map fun (b, rest) => (!b, rest)
        else match isOption a with
          | some option => some (c.unaryTest m option b, rest)
          | none => some (!a.isEmpty, b :: rest)

/-- Removes parentheses around a whole test. -/
def unwrapped : List (List Char) → List (List Char)
  | ['('] :: rest => if 1 < rest.length && rest.getLast? = some [')'] then rest.dropLast else ['('] :: rest
  | args => args

def comparesNumbers (operator : List Char) : Bool :=
  ["-eq", "-ne", "-lt", "-le", "-gt", "-ge"].contains (Utf8.textOfRaw operator)

/-- An operand of a comparison of numbers that is none. -/
def illegalNumber? : List (List Char) → Option (List Char)
  | a :: operator :: b :: rest =>
    if comparesNumbers operator && ((integer? a).isNone || (integer? b).isNone) then
      some (if (integer? a).isNone then a else b)
    else illegalNumber? (operator :: b :: rest)
  | _ => none

def test : Ending × Machine :=
  let unexpected := s!"{Utf8.textOfRaw (c.args.headD [])}: unexpected operator"
  match illegalNumber? c.args with
  | some s => (.exit 2, c.complain m s!"Illegal number: {Utf8.textOfRaw s}")
  | none =>
    match c.alternatives? m (c.args.length + 1) (unwrapped c.args) with
    | some (b, []) => (.exit (if b then 0 else 1), m)
    | _ =>
      match c.args with
      | [_, operator] =>
        if (binaryTest? (Utf8.textOfRaw operator) [] []).isSome then
          (.exit 2, c.complain m s!"{Utf8.textOfRaw operator}: argument expected")
        else (.exit 2, c.complain m unexpected)
      | _ => (.exit 2, c.complain m unexpected)

/-! ## kill -/

/-- The names of signals from 1 on. -/
def signalNames : List String :=
  ["HUP", "INT", "QUIT", "ILL", "TRAP", "ABRT", "BUS", "FPE", "KILL", "USR1", "SEGV", "USR2", "PIPE",
   "ALRM", "TERM", "STKFLT", "CHLD", "CONT", "STOP", "TSTP", "TTIN", "TTOU", "URG", "XCPU", "XFSZ",
   "VTALRM", "PROF", "WINCH", "POLL", "PWR", "SYS"]

/-- The signal of a name or a number. -/
def signal? (s : List Char) : Option Nat :=
  match number? s with
  | some n => if n ≤ 64 then some n else none
  | none =>
    (signalNames.findIdx? fun name => equalIgnoringCase name (Utf8.textOfRaw s)).map (· + 1)

/-- Signals that end a program that does nothing about them. -/
def isFatal (signal : Nat) : Bool := 0 < signal && !(List.range' 17 7).contains signal && signal != 28

def killProcess (signal : Nat) (process : List Char) : Ending × Machine :=
  match number? process with
  | some p => if isFatal signal then (.killed p signal, m) else (.exit 0, m)
  | none => (.exit 2, c.complain m s!"Illegal number: {Utf8.textOfRaw process}")

def kill : Ending × Machine :=
  let send (signal : List Char) (process : List Char) : Ending × Machine :=
    match signal? signal with
    | some n => c.killProcess m n process
    | none => (.exit 2, c.complain m s!"Illegal option -{Utf8.textOfRaw (signal.take 1)}")
  match c.args with
  | ['-', 's'] :: signal :: process :: _ => send signal process
  | ('-' :: signal) :: process :: _ => send signal process
  | [process] => c.killProcess m 15 process
  | _ => (.exit 2, c.complain m "Usage: kill [-s sigspec | -signum | -sigspec] [pid | job]...")

/-- Runs a utility; a shell needs more than this and does nothing here. -/
def run (u : Utility) : Ending × Machine :=
  match u with
  | .cat => c.cat m
  | .echo => c.echo m
  | .false => (.exit 1, m)
  | .kill => c.kill m
  | .ls => c.ls m
  | .printf => c.printf m
  | .pwd => c.pwd m
  | .sleep => c.sleep m
  | .tail => c.tail m
  | .test => c.test m
  | .sh | .true => (.exit 0, m)

end UtilityCall

end SparqlConformance
