import FormulaFit.CommandLine.Run

namespace FormulaFit.CommandLine

/-- Reads a file of the operating system. -/
def readContents (path : String) : IO Contents := do
  match ← (IO.FS.Handle.mk path .read).toBaseIO with
  | .error _ => return .missing
  | .ok handle =>
    match ← handle.readBinToEnd.toBaseIO with
    | .error _ => return .unreadable
    | .ok bytes => return .bytes bytes.toList

/-- The program's surroundings in the operating system. -/
def systemEnvironment : Environment IO where
  files := readContents
  input := do return (← (← IO.getStdin).readBinToEnd).toList
  notify n := IO.eprintln n.message

def usage : String :=
  "Usage: termfit [OPTIONS] <CONFIG> [DATA]"

def UsageError.message : UsageError → String
  | help => usage
  | version => "termfit 0.1.0"
  | unknownArgument => "unexpected argument found"
  | missingArgument => "the following required arguments were not provided: <CONFIG>"
  | invalidValue => "an argument has no valid value"
  | unreadableValue => "the number of points cannot be read"
  | repeated => "an option cannot be used multiple times"
  | needlessValue => "a flag takes no value"

/-- Runs the program; the result is the exit code. -/
def execute (arguments : List String) : IO UInt32 := do
  match Arguments.read arguments with
  | .error .help => IO.println UsageError.help.message; return 0
  | .error .version => IO.println UsageError.version.message; return 0
  | .error e =>
    IO.eprintln ("error: " ++ e.message ++ "\n\n" ++ usage)
    return 2
  | .ok a =>
    match ← (run systemEnvironment a).run with
    | .ok text => IO.print text; return 0
    | .error report =>
      for text in report.chain do
        IO.eprintln text
      return 1

end FormulaFit.CommandLine

def main (arguments : List String) : IO UInt32 :=
  FormulaFit.CommandLine.execute arguments
