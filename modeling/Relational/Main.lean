import Relational.Command.Basic

/-!
# The program

Reads the arguments and the input, and prints the report of the command.
-/

namespace Relational.Main

/-- The number of a system error. Some calls report it with its sign turned. -/
def errorNumber (code : UInt32) : UInt32 := min code (0 - code)

/-- The reason for which a file was not read. -/
def readError : IO.Error → Command.ReadError
  | .noFileOrDirectory .. => .notFound
  | .permissionDenied .. => .denied
  | .inappropriateType _ code _ =>
    if errorNumber code = 20 then .notDirectory else .isDirectory
  | e => .other (toString e)

/-- The bytes of an input as text. -/
def decode (bytes : ByteArray) : Except Command.ReadError String :=
  match String.fromUTF8? bytes with
  | some text => .ok text
  | none => .error .notText

/-- Reads the whole standard input. -/
def readStdin : IO ByteArray := do
  let stream ← IO.getStdin
  let mut bytes := ByteArray.empty
  let mut more := true
  while more do
    let chunk ← stream.read 65536
    bytes := bytes ++ chunk
    more := !chunk.isEmpty
  return bytes

/-- Reads the input that the options name. -/
def readInput (options : Command.Options) : IO (Except Command.ReadError String) := do
  if options.input = "-" then
    return decode (← readStdin)
  try
    return decode (← IO.FS.readBinFile options.input)
  catch e =>
    return .error (readError e)

/-- Prints a report and gives its code. Without a report the program breaks off. -/
def print (report : Option Command.Report) : IO UInt32 := do
  let some report := report | throw (IO.userError "the run does not come to an end")
  for warning in report.warnings do
    IO.eprintln warning
  IO.print report.output
  if let some complaint := report.complaint then
    IO.eprintln complaint
  return report.code.toUInt32

end Relational.Main

/-- The command line. -/
def main (args : List String) : IO UInt32 := do
  match Relational.Command.readArguments args with
  | .ok (.run options) =>
    let document ← Relational.Main.readInput options
    Relational.Main.print (options.run Relational.ampleFuel document)
  | _ =>
    Relational.Main.print
      (Relational.Command.report args (Relational.Command.Files.ofList []) "" 0)
