import ScriptReader.Diagnostic
import ScriptReader.Grammar.Rules
import ScriptReader.Token.Stream

/-! # The parser's state

A parser holds a stream of tokens and, taken from it, the token under examination and one token of
lookahead. Beside them it keeps the diagnostics found so far, the rule tables in force, the number
of blocks that the statement being read has entered and not left, and the number of expressions
being read. The last number is bounded by a limit, which may be absent.
-/

namespace ScriptReader

structure Parser (σ : Type) where
  source : σ
  current : Token
  peek : Token
  diagnostics : List Diagnostic
  openBlocks : Nat
  nesting : Nat
  limit : Option Nat
  rules : Rules

namespace Parser

/-- The number of expressions that may be read inside one another, the outermost included. -/
def standardLimit : Nat := 128

variable {σ : Type} [TokenStream σ]

/-- Shifts the two tokens held by one. -/
def advance (p : Parser σ) : Parser σ :=
  { p with
    current := p.peek
    peek := (TokenStream.next p.source).1
    source := (TokenStream.next p.source).2 }

/-- A parser that holds the first two tokens of a stream. -/
def start (limit : Option Nat) (rules : Rules) (source : σ) : Parser σ :=
  advance (advance ⟨source, .endOfInput, .endOfInput, [], 0, 0, limit, rules⟩)

/-- A parser for the language, with its limit. -/
def ofStream (source : σ) : Parser σ := start (some standardLimit) .standard source

/-- How tightly the lookahead binds to an operand before it. -/
def level (p : Parser σ) : Precedence := p.rules.level p.peek.kind

/-- Adds a diagnostic behind those found before. -/
def record (p : Parser σ) (diagnostic : Diagnostic) : Parser σ :=
  { p with diagnostics := p.diagnostics ++ [diagnostic] }

def enterBlock (p : Parser σ) : Parser σ := { p with openBlocks := p.openBlocks + 1 }

def exitBlock (p : Parser σ) : Parser σ := { p with openBlocks := p.openBlocks - 1 }

def exitNesting (p : Parser σ) : Parser σ := { p with nesting := p.nesting - 1 }

/-- An upper bound for the tokens behind the current one, ends of input not counted. -/
def behind (p : Parser σ) : Nat := p.peek.weight + TokenStream.remaining p.source

/-- An upper bound for the tokens held or still to come, ends of input not counted. -/
def ahead (p : Parser σ) : Nat := p.current.weight + p.behind

theorem ahead_advance_le (p : Parser σ) : p.advance.ahead ≤ p.behind := by
  have := TokenStream.weight_next p.source
  simp only [ahead, behind, advance]
  omega

theorem behind_advance_le (p : Parser σ) : p.advance.behind ≤ p.behind :=
  Nat.le_trans (Nat.le_add_left ..) p.ahead_advance_le

theorem behind_lt_ahead {p : Parser σ} (present : p.current.kind ≠ .endOfInput) :
    p.behind < p.ahead := by
  have := Token.weight_eq_one present
  simp only [ahead]
  omega

end Parser

end ScriptReader
