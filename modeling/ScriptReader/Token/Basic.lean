import ScriptReader.Text.Quoted
import ScriptReader.Token.Kind

/-! # Tokens

A token pairs a kind with the exact text it stands for. The kind alone decides how a program is
read; the text is only kept, for the tree and for the messages.
-/

namespace ScriptReader

structure Token where
  kind : Kind
  literal : String
deriving DecidableEq, Repr

namespace Token

/-- The token behind the last one of every source. -/
def endOfInput : Token := ⟨.endOfInput, ""⟩

/-- One line for the token: the name of its kind and its quoted literal. -/
def text (token : Token) : String := token.kind.name ++ " " ++ quote token.literal

/-- Every token counts one, except those that mark the end of input. -/
def weight (token : Token) : Nat := if token.kind = .endOfInput then 0 else 1

@[simp] theorem weight_endOfInput : endOfInput.weight = 0 := rfl

theorem weight_le_one (token : Token) : token.weight ≤ 1 := by
  unfold weight; split <;> omega

theorem weight_eq_one {token : Token} (present : token.kind ≠ .endOfInput) : token.weight = 1 :=
  if_neg present

end Token

end ScriptReader
