/-
Peg/Main.lean

The program: it reads the files that the command line names, runs the command
line on them and prints what it gives.
-/
import Peg.CommandLine

namespace Peg.CommandLine

/-- The content of a file, if it can be read as text. -/
def readFile? (path : String) : IO (Option String) := do
  try
    return some (← IO.FS.readFile path)
  catch _ =>
    return none

/-- The files that a command line names and that can be read, each with its path. -/
def readFiles (arguments : List String) : IO (List (String × String)) := do
  match readArguments {} arguments with
  | some (.run arguments) =>
    let paths := arguments.grammar.toList ++ arguments.input.toList
    let files ← paths.mapM fun path => do
      return (← readFile? path).map fun content => (path, content)
    return files.filterMap id
  | _ => return []

end Peg.CommandLine

def main (arguments : List String) : IO UInt32 := do
  let files ← Peg.CommandLine.readFiles arguments
  let result := Peg.CommandLine.run (fun path => List.lookup path files) arguments
  IO.print result.output
  return result.status.toUInt32
