import SparqlConformance.CommandLine.Session
import SparqlConformance.Machine.Description
/-!
# The command line

Runs a session on the machine that the standard input describes, and prints what the session prints.
-/
open SparqlConformance

def main (args : List String) : IO UInt32 := do
  let text ← (← IO.getStdin).readToEnd
  match MachineDescription.ofText? text with
  | none =>
    IO.eprintln "the standard input does not describe a machine"
    return 2
  | some d =>
    let (response, _) :=
      CommandLine.session (Machine.world d.environment) d.environment args d.machine
    IO.print response.output
    IO.eprint response.complaint
    return UInt32.ofNat response.exitCode
