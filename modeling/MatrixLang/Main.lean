import MatrixLang.CommandLine

/-! # The program

Reads the file that the arguments name, prints the report on it, and exits with its status.
-/

namespace MatrixLang

def readContents (arguments : List String) : IO (Option ByteArray) := do
  match Invocation.ofArguments arguments with
  | .ok invocation =>
    try return some (← IO.FS.readBinFile invocation.file) catch _ => return none
  | .error _ => return none

end MatrixLang

def main (arguments : List String) : IO UInt32 := do
  let report := MatrixLang.Report.ofArguments arguments (← MatrixLang.readContents arguments)
  (← IO.getStdout).putStr report.output
  return report.status.toUInt32
