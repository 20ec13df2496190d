/-
Module: RelQuery.Main
Purpose: The program: runs the arguments on the files, the variables and the input of the process.
Main exports: main
-/
import RelQuery.CommandLine.Run

open RelQuery.CommandLine

/-- The content of a file of the process. -/
def readFileContent (path : String) : IO FileContent := do
  try
    return .text (← IO.FS.readFile path)
  catch
    | .noFileOrDirectory .. => return .absent
    | error => return .unreadable (toString error)

/-- The rest of a stream. -/
partial def readRest (stream : IO.FS.Stream) (text : String) : IO String := do
  let line ← stream.getLine
  if line.isEmpty then return text else readRest stream (text ++ line)

/-- The process as a host. -/
def processHost : Host IO where
  environment := fun name => IO.getEnv name
  file := readFileContent
  input := do readRest (← IO.getStdin) ""

/-- Runs the arguments. What fails is reported on the error stream. -/
def main (arguments : List String) : IO UInt32 := do
  match Invocation.ofArguments? arguments with
  | none =>
    IO.eprintln usage
    return 2
  | some invocation =>
    match ← (run processHost invocation).run with
    | .ok text =>
      IO.print text
      return 0
    | .error error =>
      IO.eprintln error.message
      return 1
