/-
**The program.**

Reads the input where it is needed, prints the answer and exits with its code.
-/

import Formula.Command.Response

open Formula.Command

/-- Answers the arguments from the command line. -/
def main (arguments : List String) : IO UInt32 := do
  let needed := ((Invocation.ofArguments? arguments).map Invocation.readsInput).getD false
  let input ←
    if needed then
      pure (String.fromUTF8? (← (← IO.getStdin).readBinToEnd))
    else pure none
  let response := respond arguments input
  IO.print response.output
  IO.eprint response.message
  return response.code.toUInt32
