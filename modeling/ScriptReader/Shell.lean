import ScriptReader.Parser.Program
import ScriptReader.Scanner.Pool
import ScriptReader.Text.Lines
import ScriptReader.Tree.Text

/-! # The interactive shell

The shell prompts for a line, answers it, and prompts again, until a line says to quit or the input
ends. A line that is not UTF-8 ends the session with a failure. Every line is read by a scanner
borrowed from a pool, which outlives the lines.
-/

namespace ScriptReader.Shell

/-- What the shell writes for a line: its tokens, or the program it spells. -/
inductive Mode where
  | tokens
  | tree
deriving DecidableEq, Repr

namespace Mode

/-- The mode in which a shell starts when none is asked for. -/
def standard : Mode := .tree

def ofName? : String → Option Mode
  | "tokens" => some .tokens
  | "ast" => some .tree
  | _ => none

end Mode

def prompt : String := ">> "

/-- The line that ends the session. -/
def quitWord : String := "QUIT"

variable {σ : Type} [TokenStream σ]

/-- One line for each token up to the end of input. -/
def listing (source : σ) : String :=
  String.join ((TokenStream.drain source).map fun token => token.text ++ "\n")

/-- The report of the diagnostics if there are any, and else the program, if it is not empty. -/
def reading (source : σ) : String :=
  let (program, diagnostics) := parse source
  if diagnostics ≠ [] then report diagnostics
  else if program.statements = [] then ""
  else program.text ++ "\n"

def answer (mode : Mode) (source : σ) : String :=
  match mode with
  | .tokens => listing source
  | .tree => reading source

/-- What becomes of a line. -/
inductive Reply where
  | answered (text : String) (pool : Pool)
  | quit
  /-- The line is not UTF-8. -/
  | undecodable

def reply (mode : Mode) (pool : Pool) (line : List UInt8) : Reply :=
  match decode? line with
  | none => .undecodable
  | some text =>
    let content := trimBreaks text
    if content = quitWord then .quit
    else
      let (scanner, left) := pool.acquire content
      .answered (answer mode scanner) (left.release scanner)

/-- All that a session writes, and whether it ended on a line that is not UTF-8. -/
structure Transcript where
  output : String
  failed : Bool
deriving DecidableEq, Repr

/-- A session over the lines that are left. -/
def session (mode : Mode) (pool : Pool) : List (List UInt8) → Transcript
  | [] => ⟨prompt, false⟩
  | line :: rest =>
    match reply mode pool line with
    | .answered text pool =>
      let after := session mode pool rest
      ⟨prompt ++ text ++ after.output, after.failed⟩
    | .quit => ⟨prompt, false⟩
    | .undecodable => ⟨prompt, true⟩

/-- A session over an input, with a pool of its own. -/
def run (mode : Mode) (input : List UInt8) : Transcript := session mode {} (splitLines input)

end ScriptReader.Shell
