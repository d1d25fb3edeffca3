import ReaderGen.CommandLine

/-!
# ReaderGen.Main -- the program

Reads the file that the arguments name, if they name one, and prints the outcome of the
run. **What is printed is decided by `CommandLine.run` alone**; only the reading of the
file and the printing happen here.
-/

namespace ReaderGen.Main

/-- The reason behind an error code. A code may come negated, as a number of 32 bits. -/
def readErrorOfCode (code : UInt32) (description : String) : ReadError :=
  let number := if code < 0x80000000 then code else 0 - code
  match number with
  | 2 => .notFound
  | 13 => .system "Permission denied" 13
  | 20 => .notDirectory
  | 21 => .isDirectory
  | 36 => .nameTooLong
  | 40 => .system "Too many levels of symbolic links" 40
  | _ => .system description number

/-- Why the file system refuses to read a file. -/
def readErrorOf (error : IO.Error) : ReadError :=
  match error with
  | .noFileOrDirectory _ code description => readErrorOfCode code description
  | .inappropriateType _ code description => readErrorOfCode code description
  | .permissionDenied _ code description => readErrorOfCode code description
  | .invalidArgument _ code description => readErrorOfCode code description
  | .resourceExhausted _ code description => readErrorOfCode code description
  | .noSuchThing _ code description => readErrorOfCode code description
  | .interrupted _ code description => readErrorOfCode code description
  | .hardwareFault code description => readErrorOfCode code description
  | .otherError code description => readErrorOfCode code description
  | _ => .system "Input/output error" 5

/-- The text of a file. -/
def readText (path : String) : BaseIO (Except ReadError String) := do
  match ← (IO.FS.readBinFile path).toBaseIO with
  | .ok bytes => return textOfBytes bytes
  | .error error => return .error (readErrorOf error)

/-- What is told of a text that is no schema in YAML. -/
def explainYaml (_ : String) : String := "not a document that holds a schema"

/-- The text of the file that the arguments name. -/
def readSchemaText (args : List String) : BaseIO (Except ReadError String) :=
  match CommandLine.schemaPath? args with
  | some path => readText path
  | none => return .error .notFound

end ReaderGen.Main

/-- Runs with the arguments of the command line. -/
def main (args : List String) : IO UInt32 := do
  let text ← ReaderGen.Main.readSchemaText args
  let outcome := ReaderGen.CommandLine.run args (fun _ => text) ReaderGen.Main.explainYaml
  (← IO.getStdout).putStr outcome.stdout
  (← IO.getStderr).putStr outcome.stderr
  return outcome.exitCode.toUInt32
