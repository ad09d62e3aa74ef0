import ScriptReader.CommandLine.Run

/-! # The program

The command line over the real standard streams and files. A session of the shell answers each line
as soon as it has been read.
-/

namespace ScriptReader.CommandLine

/-- The bytes up to and with the next line feed, or up to the end of the input. -/
partial def readLine (input : IO.FS.Stream) (line : ByteArray) : IO ByteArray := do
  let byte ← input.read 1
  if byte.isEmpty then
    return line
  else if byte.data.back? = some '\n'.toUInt8 then
    return line ++ byte
  else
    readLine input (line ++ byte)

/-- Answers line by line, and tells whether the session ended on a line that is not UTF-8. -/
partial def converse (mode : Shell.Mode) (pool : Pool) (input output : IO.FS.Stream) : IO Bool := do
  output.putStr Shell.prompt
  output.flush
  let line ← readLine input .empty
  if line.isEmpty then
    return false
  match Shell.reply mode pool line.toList with
  | .answered text pool =>
    output.putStr text
    converse mode pool input output
  | .quit => return false
  | .undecodable => return true

/-- What the system says about a file that it could not read. Its codes come as they are from reading
and negated from opening. -/
def reason : IO.Error → String
  | .noFileOrDirectory .. => ReadFault.missing.message
  | .inappropriateType _ code details =>
    if code = 20 ∨ code = -20 then ReadFault.notDirectory.message
    else if code = 21 ∨ code = -21 then ReadFault.isDirectory.message
    else details
  | fault => toString fault

def readFile (path : String) : IO Ending := do
  match ← (IO.FS.readBinFile path).toBaseIO with
  | .error fault => return unreadable path (reason fault)
  | .ok content =>
    match decode? content.toList with
    | some text => return readText text
    | none => return unreadable path ReadFault.notText.message

/-- Writes what is seen of a run, and answers the code that it ends with. -/
def finish (ending : Ending) : IO UInt32 := do
  (← IO.getStdout).putStr ending.output
  (← IO.getStderr).putStr ending.errors
  return ending.exit.toUInt32

end ScriptReader.CommandLine

open ScriptReader ScriptReader.CommandLine in
def main (arguments : List String) : IO UInt32 := do
  match invocation? arguments with
  | none =>
    (← IO.getStderr).putStr "usage: frontend [--mode tokens|ast] [FILE]\n"
    return 2
  | some .version => finish { exit := 0, output := versionText }
  | some (.file path) => finish (← readFile path)
  | some (.shell mode) =>
    let output ← IO.getStdout
    output.putStr greeting
    let failed ← converse mode {} (← IO.getStdin) output
    if failed then
      finish { exit := 1, errors := "Error: " ++ ReadFault.notText.message ++ "\n" }
    else
      return 0
