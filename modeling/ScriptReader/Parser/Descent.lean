import ScriptReader.Parser.Parse
import ScriptReader.Tree.Basic

/-! # The recursive places of the grammar

Every rule of the grammar is written over the five places at which it may recur. A rule can so be
read, and reasoned about, without the recursion that ties all of them together.
-/

namespace ScriptReader

structure Descent (σ : Type) where
  /-- The expression at the current token, with the operators that bind tighter than a level. -/
  expr : Precedence → Parse σ Expr
  /-- The operators behind an operand that has been read, as far as they bind tighter than a level. -/
  operators : Precedence → Expr → Parse σ Expr
  /-- At least one argument, the first one at the current token. -/
  arguments : Parse σ (List Expr)
  /-- At least one parameter, the first one at the lookahead. -/
  parameters : Parse σ (List Name)
  /-- The statements from the current token up to a closing brace. -/
  statements : Parse σ (List Stmt)

/-- The descent that never answers. -/
def Descent.unfinished {σ : Type} : Descent σ where
  expr _ := Parse.unfinished
  operators _ _ := Parse.unfinished
  arguments := Parse.unfinished
  parameters := Parse.unfinished
  statements := Parse.unfinished

end ScriptReader
