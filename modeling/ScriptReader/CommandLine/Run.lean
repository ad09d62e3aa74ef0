import ScriptReader.CommandLine.Arguments
import ScriptReader.CommandLine.Files

/-! # Runs of the program

A run answers its arguments: it names its version, or reads one file, or starts the shell on the
standard input. What it writes and the code it ends with depend on the arguments, the files and the
input alone.
-/

namespace ScriptReader.CommandLine

/-- All that can be seen of a run. -/
structure Ending where
  exit : Nat
  output : String := ""
  errors : String := ""
deriving DecidableEq, Repr

/-- The name and the number of the program. -/
def versionText : String := "frontend 0.1.0\n"

def greeting : String := "Type '" ++ Shell.quitWord ++ "' to quit.\n"

/-- The program in a text goes to the output, and the report of its faults to the errors. -/
def readText (text : String) : Ending :=
  let (program, diagnostics) := parseText text
  { exit := if diagnostics = [] then 0 else 1
    output := if program.statements = [] then "" else program.text ++ "\n"
    errors := report diagnostics }

/-- The ending of a run whose file could not be read. -/
def unreadable (path reason : String) : Ending :=
  { exit := 1
    errors := "Error: failed to read " ++ path ++ "\n\nCaused by:\n    " ++ reason ++ "\n" }

/-- The ending of a session of the shell. -/
def afterShell (transcript : Shell.Transcript) : Ending :=
  { exit := if transcript.failed then 1 else 0
    output := greeting ++ transcript.output
    errors := if transcript.failed then "Error: " ++ ReadFault.notText.message ++ "\n" else "" }

/-- The ending of what was asked for. -/
def perform (files : Files) (input : List UInt8) : Invocation → Ending
  | .version => { exit := 0, output := versionText }
  | .shell mode => afterShell (Shell.run mode input)
  | .file path =>
    match files.read path with
    | .ok text => readText text
    | .error fault => unreadable path fault.message

/-- The run on the given arguments; there is none when the arguments are at fault. -/
def run? (files : Files) (input : List UInt8) (arguments : List String) : Option Ending :=
  (invocation? arguments).map (perform files input)

end ScriptReader.CommandLine
