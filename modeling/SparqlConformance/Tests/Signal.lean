import SparqlConformance.Number.Power
/-!
# Signals

Signals that end programs, as exit codes tell them: a negative code is the number itself, and shells
add 128 to it. Exit codes are 32-bit numbers, so the lowest one has no counterpart above zero and
stands for the highest number.
-/
namespace SparqlConformance

structure Signal where
  number : Int
  deriving DecidableEq, Repr, Inhabited

namespace Signal

def ofExitCode? (code : Int) : Option Signal :=
  if code < 0 then some ⟨min (-code) (twoTo 31 - 1)⟩
  else if 128 < code then some ⟨code - 128⟩
  else none

def name (s : Signal) : String :=
  match s.number with
  | 1 => "SIGHUP"
  | 2 => "SIGINT"
  | 3 => "SIGQUIT"
  | 4 => "SIGILL"
  | 5 => "SIGTRAP"
  | 6 => "SIGABRT"
  | 7 => "SIGBUS"
  | 8 => "SIGFPE"
  | 9 => "SIGKILL"
  | 10 => "SIGUSR1"
  | 11 => "SIGSEGV"
  | 12 => "SIGUSR2"
  | 13 => "SIGPIPE"
  | 14 => "SIGALRM"
  | 15 => "SIGTERM"
  | 24 => "SIGXCPU"
  | 25 => "SIGXFSZ"
  | n => s!"SIG{n}"

def interrupt : Signal := ⟨2⟩

def isInterrupt (s : Signal) : Bool := s == interrupt

def text (s : Signal) : String := s!"{s.name} ({s.number})"

end Signal

end SparqlConformance
