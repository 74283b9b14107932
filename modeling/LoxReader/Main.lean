import LoxReader.Command.Answer

/-!
# The command

Reads the standard input or a file and prints the tokens or the expression in it.
-/

open LoxReader

/-- The bytes of the standard input or of a file, if there is one. -/
def LoxReader.Command.readInput (file? : Option String) : IO (Option ByteArray) := do
  match file? with
  | none => return some (← (← IO.getStdin).readBinToEnd)
  | some name => try return some (← IO.FS.readBinFile name) catch _ => return none

def main (arguments : List String) : IO UInt32 := do
  match Command.Options.ofArguments arguments with
  | .error .help =>
    IO.println "Usage: [--tokens | --infix] [--lenient] [FILE]"
    return 0
  | .error _ =>
    IO.eprintln "Usage: [--tokens | --infix] [--lenient] [FILE]"
    return 2
  | .ok options =>
    match options.answer (← Command.readInput options.file?) with
    | .ok text =>
      IO.print (String.ofList text)
      return 0
    | .error (.unreadable error) =>
      IO.eprintln error.message
      return 1
    | .error (.faulty diagnostics) =>
      IO.eprintln (String.ofList (Diagnostic.report diagnostics))
      return 1
