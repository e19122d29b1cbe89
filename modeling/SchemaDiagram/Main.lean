import SchemaDiagram.Command.Session

/-! # Main — the program

    Binds a run to the files, standard input and standard output of the
    process. -/

namespace SchemaDiagram.Command

/-- The number of a system error; some operations report it negated. -/
def errorNumber (code : UInt32) : UInt32 := if code < 0x80000000 then code else 0 - code

/-- The error of a file operation, in this library's terms. -/
def FileError.ofSystem (error : IO.Error) : FileError :=
  let other : FileError := .other error.toString
  match error with
  | .noFileOrDirectory .. => .notFound
  | .inappropriateType _ code _ => if errorNumber code = 20 then .notDirectory else .isDirectory
  | .invalidArgument _ code _ => if errorNumber code = 36 then .nameTooLong else other
  | .permissionDenied _ code _ =>
    if errorNumber code = 13 then .other "Permission denied (os error 13)" else other
  | _ => other

/-- The result of a file operation. -/
def attempt {α : Type} (action : IO α) : IO (Except FileError α) := do
  try
    return .ok (← action)
  catch error =>
    return .error (FileError.ofSystem error)

/-- The surroundings of the process. -/
def processHost : Host IO where
  readStdin := do (← IO.getStdin).readBinToEnd
  readFile path := attempt (IO.FS.readBinFile (String.ofList path))
  writeFile path content := attempt (IO.FS.writeBinFile (String.ofList path) content)

end SchemaDiagram.Command

open SchemaDiagram in
def main (arguments : List String) : IO UInt32 := do
  let outcome ← Command.execute Command.processHost (arguments.map String.toList)
  for warning in outcome.warnings do
    IO.eprintln (String.ofList ("warning: " ++ warning.message))
  if let some line := outcome.error then
    IO.eprintln (String.ofList line)
  let stdout ← IO.getStdout
  stdout.putStr (String.ofList outcome.stdout)
  stdout.flush
  return outcome.code.toUInt32
