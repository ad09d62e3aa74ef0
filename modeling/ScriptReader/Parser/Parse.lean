import ScriptReader.Parser.Basic

/-! # Parses

A parse takes a parser to an outcome: a value, or the diagnostic that refuses the input, each with
the parser as it was left. The third outcome is that of a parse whose recursion was cut short; it
says nothing about the input. A refusal passes through every parse that contains it.
-/

namespace ScriptReader

inductive Outcome (σ α : Type) where
  | accepted (value : α) (after : Parser σ)
  | rejected (diagnostic : Diagnostic) (after : Parser σ)
  | unfinished

/-- Changes the parser that an outcome leaves behind. -/
def Outcome.mapAfter {σ α : Type} (change : Parser σ → Parser σ) : Outcome σ α → Outcome σ α
  | .accepted value after => .accepted value (change after)
  | .rejected diagnostic after => .rejected diagnostic (change after)
  | .unfinished => .unfinished

def Parse (σ α : Type) := Parser σ → Outcome σ α

namespace Parse

variable {σ α β : Type}

protected def pure (value : α) : Parse σ α := fun p => .accepted value p

protected def bind (first : Parse σ α) (next : α → Parse σ β) : Parse σ β := fun p =>
  match first p with
  | .accepted value after => next value after
  | .rejected diagnostic after => .rejected diagnostic after
  | .unfinished => .unfinished

instance : Monad (Parse σ) where
  pure := Parse.pure
  bind := Parse.bind

/-- The parse that never answers. -/
def unfinished : Parse σ α := fun _ => .unfinished

def reject (diagnostic : Diagnostic) : Parse σ α := fun p => .rejected diagnostic p

def modify (change : Parser σ → Parser σ) : Parse σ Unit := fun p => .accepted () (change p)

def current : Parse σ Token := fun p => .accepted p.current p

def peek : Parse σ Token := fun p => .accepted p.peek p

def rules : Parse σ Rules := fun p => .accepted p.rules p

/-- Counts one more expression being read, unless the limit is reached. -/
def enterNesting : Parse σ Unit := fun p =>
  match p.limit with
  | some limit =>
    if limit ≤ p.nesting then .rejected ⟨.tooDeep limit, p.current⟩ p
    else .accepted () { p with nesting := p.nesting + 1 }
  | none => .accepted () { p with nesting := p.nesting + 1 }

/-- Reads one level deeper, and comes back up whether the reading succeeds or fails. -/
def nested (body : Parse σ α) : Parse σ α := do
  enterNesting
  fun p => (body p).mapAfter Parser.exitNesting

variable [TokenStream σ]

def advance : Parse σ Unit := modify Parser.advance

/-- Advances onto the lookahead when it has the expected kind, and answers it. -/
def expect (expected : Kind) : Parse σ Token := do
  let found ← peek
  if found.kind = expected then
    advance
    current
  else
    reject (.unexpected expected found)

end Parse

end ScriptReader
