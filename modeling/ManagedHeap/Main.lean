import ManagedHeap.CommandLine.Evaluation

/-!
# The program

Runs a command from the arguments, prints what it wrote and exits with its code.
-/

def main (arguments : List String) : IO UInt32 := do
  let result := ManagedHeap.CommandLine.run arguments
  IO.print result.output
  IO.eprint result.diagnostics
  return result.code.toUInt32
