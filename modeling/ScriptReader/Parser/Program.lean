import ScriptReader.Parser.Moves
import ScriptReader.Parser.Recovery
import ScriptReader.Scanner.Progress

/-! # Programs

A program is read statement by statement up to the first end of input. A statement that is refused
is left out; its diagnostic is recorded, and reading resumes behind the next boundary. Each
statement takes at least one token, so the reading ends.
-/

namespace ScriptReader

variable {σ : Type} [TokenStream σ]

namespace Parser

theorem ahead_advance_lt {p q : Parser σ} (present : p.current.kind ≠ .endOfInput)
    (later : q.behind ≤ p.behind) : q.advance.ahead < p.ahead :=
  Nat.lt_of_le_of_lt (Nat.le_trans q.ahead_advance_le later) (behind_lt_ahead present)

/-- The statements from the current token to the end of input, with the parser as it was left. -/
def statements? (p : Parser σ) : Option (List Stmt × Parser σ) :=
  if _ended : p.current.kind = .endOfInput then some ([], p)
  else
    match _ran : p.statement with
    | .accepted statement after => do
      let (rest, last) ← statements? after.advance
      some (statement :: rest, last)
    | .rejected diagnostic after => statements? (after.record diagnostic).recover.advance
    | .unfinished => none
termination_by p.ahead
decreasing_by
  · have moved := p.statement_moved
    rw [_ran] at moved
    exact ahead_advance_lt _ended moved.behind_le
  · have moved := p.statement_moved
    rw [_ran] at moved
    exact ahead_advance_lt _ended (Nat.le_trans (behind_recover_le _) moved.behind_le)

/-- The program from the current token to the end of input, with the parser as it was left. -/
def program? (p : Parser σ) : Option (Program × Parser σ) :=
  p.statements?.map fun (statements, last) => (⟨statements⟩, last)

/-- The program from the current token on, and all diagnostics found. A parser whose rules never
come to an end answers nothing. -/
def result (p : Parser σ) : Program × List Diagnostic :=
  match p.program? with
  | some (program, last) => (program, last.diagnostics)
  | none => ({}, [])

end Parser

/-- The program that a stream of tokens spells, and the diagnostics of the statements left out. -/
def parse (source : σ) : Program × List Diagnostic := (Parser.ofStream source).result

/-- Scans and parses a text. -/
def parseText (text : String) : Program × List Diagnostic := parse (Scanner.ofString text)

end ScriptReader
