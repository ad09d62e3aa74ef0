import ScriptReader.Proofs.Numerals

/-! # Truthful diagnostics

A diagnostic is made at one of many places of the grammar, from the token under examination or from
the lookahead, and passes through every rule around that place. Whatever the tokens are, it blames
one of them or the end of input, and what it says about that token holds.
-/

namespace ScriptReader

/-- What a diagnostic says is true of the token it blames, and of the limit on nesting. -/
def Diagnostic.Truthful (limit : Option Nat) (diagnostic : Diagnostic) : Prop :=
  match diagnostic.cause with
  | .unexpected expected found => found = diagnostic.token.kind ∧ found ≠ expected
  | .noOperand found =>
    found = diagnostic.token.kind ∧ found ≠ .illegal ∧ Rules.standard.operand found = none
  | .illegalCharacter literal =>
    diagnostic.token.kind = .illegal ∧ literal = diagnostic.token.literal
  | .badInteger literal => diagnostic.token.kind = .integer ∧ literal = diagnostic.token.literal ∧
    ∀ value, Numeral.Denotes literal value → ¬ Numeral.Fits value
  | .tooDeep most => limit = some most

namespace Diagnostic

theorem truthful_unexpected {limit : Option Nat} {expected : Kind} {found : Token}
    (other : found.kind ≠ expected) : (unexpected expected found).Truthful limit :=
  ⟨rfl, other⟩

theorem truthful_noOperand {limit : Option Nat} {found : Token}
    (without : Rules.standard.operand found.kind = none) : (noOperand found).Truthful limit := by
  unfold noOperand
  split
  · next illegal => exact ⟨illegal, rfl⟩
  · next legal => exact ⟨rfl, legal, without⟩

end Diagnostic

/-! ### Refusals -/

variable {limit : Option Nat}

theorem Name.RefusedList.truthful {diagnostic : Diagnostic} {tokens : List Token}
    (refused : Name.RefusedList diagnostic tokens) : diagnostic.Truthful limit := by
  induction refused with
  | name other => exact Diagnostic.truthful_unexpected other
  | later _ _ _ ih => exact ih

theorem Name.Unlisted.truthful {diagnostic : Diagnostic} {tokens : List Token}
    (refused : Name.Unlisted diagnostic tokens) : diagnostic.Truthful limit := by
  cases refused with
  | name _ rest => exact rest.truthful
  | close _ _ other => exact Diagnostic.truthful_unexpected other

mutual

theorem Expr.Refused.truthful : ∀ {nest : Nat} {bound : Precedence} {count : Nat}
    {diagnostic : Diagnostic} {tokens : List Token},
    Expr.Refused limit nest bound count diagnostic tokens → diagnostic.Truthful limit
  | _, _, _, _, _, .tooDeep limited _ => limited
  | _, _, _, _, _, .operand _ inner => inner.truthful
  | _, _, _, _, _, .right _ _ _ _ _ second => second.truthful
  | _, _, _, _, _, .arguments _ _ _ _ _ given => given.truthful

theorem Expr.RefusedOperand.truthful : ∀ {nest count : Nat} {diagnostic : Diagnostic}
    {tokens : List Token},
    Expr.RefusedOperand limit nest count diagnostic tokens → diagnostic.Truthful limit
  | _, _, _, _, .start without => Diagnostic.truthful_noOperand without
  | _, _, _, _, .integer numeral unfit => ⟨numeral, rfl, Numeral.signed?_eq_none_iff.mp unfit⟩
  | _, _, _, _, .unary _ inner => inner.truthful
  | _, _, _, _, .grouped _ inner => inner.truthful
  | _, _, _, _, .condition _ other => Diagnostic.truthful_unexpected other
  | _, _, _, _, .tested _ _ inner => inner.truthful
  | _, _, _, _, .chosen _ _ _ _ _ inner => inner.truthful
  | _, _, _, _, .left _ _ _ _ _ _ _ _ inner => inner.truthful
  | _, _, _, _, .function _ other => Diagnostic.truthful_unexpected other
  | _, _, _, _, .parameters _ _ inner => inner.truthful
  | _, _, _, _, .does _ _ _ inner => inner.truthful

theorem Expr.Unclosed.truthful : ∀ {nest : Nat} {closer : Kind} {count : Nat}
    {diagnostic : Diagnostic} {tokens : List Token},
    Expr.Unclosed limit nest closer count diagnostic tokens → diagnostic.Truthful limit
  | _, _, _, _, _, .inner inner => inner.truthful
  | _, _, _, _, _, .close _ _ _ other => Diagnostic.truthful_unexpected other

theorem Expr.RefusedList.truthful : ∀ {nest count : Nat} {diagnostic : Diagnostic}
    {tokens : List Token},
    Expr.RefusedList limit nest count diagnostic tokens → diagnostic.Truthful limit
  | _, _, _, _, .first inner => inner.truthful
  | _, _, _, _, .later _ _ _ rest => rest.truthful

theorem Expr.Unlisted.truthful : ∀ {nest count : Nat} {diagnostic : Diagnostic}
    {tokens : List Token},
    Expr.Unlisted limit nest count diagnostic tokens → diagnostic.Truthful limit
  | _, _, _, _, .argument _ rest => rest.truthful
  | _, _, _, _, .close _ _ _ _ other => Diagnostic.truthful_unexpected other

theorem Stmt.Refused.truthful : ∀ {nest count : Nat} {diagnostic : Diagnostic}
    {tokens : List Token},
    Stmt.Refused limit nest count diagnostic tokens → diagnostic.Truthful limit
  | _, _, _, _, .name _ other => Diagnostic.truthful_unexpected other
  | _, _, _, _, .assign _ _ other => Diagnostic.truthful_unexpected other
  | _, _, _, _, .declaration _ _ _ inner => inner.truthful
  | _, _, _, _, .ret _ inner => inner.truthful
  | _, _, _, _, .expression _ inner => inner.truthful
  | _, _, _, _, .semicolon _ _ _ _ other => Diagnostic.truthful_unexpected other

theorem Stmt.RefusedList.truthful : ∀ {closer : Kind} {nest count : Nat}
    {diagnostic : Diagnostic} {tokens : List Token},
    Stmt.RefusedList limit closer nest count diagnostic tokens → diagnostic.Truthful limit
  | _, _, _, _, _, .first _ _ inner => inner.truthful
  | _, _, _, _, _, .later _ _ _ rest => rest.truthful

theorem Block.Refused.truthful : ∀ {nest count : Nat} {diagnostic : Diagnostic}
    {tokens : List Token},
    Block.Refused limit nest count diagnostic tokens → diagnostic.Truthful limit
  | _, _, _, _, .brace other => Diagnostic.truthful_unexpected other
  | _, _, _, _, .statement _ body => body.truthful
  | _, _, _, _, .close _ _ _ ended =>
    Diagnostic.truthful_unexpected (by rw [ended]; decide)

end

/-! ### Runs -/

theorem front_mem_or (tokens : List Token) :
    front tokens ∈ tokens ∨ front tokens = .endOfInput := by
  cases tokens with
  | nil => exact .inr rfl
  | cons token rest => exact .inl (.head _)

/-- Recovery moves on through the tokens, so every later refusal blames one of them too. -/
theorem Run.truthful {tokens : List Token} {statements : List Stmt} {diagnostics : List Diagnostic}
    (run : Run limit tokens statements diagnostics) : ∀ diagnostic ∈ diagnostics,
      (diagnostic.token ∈ tokens ∨ diagnostic.token = .endOfInput) ∧ diagnostic.Truthful limit := by
  induction run with
  | ended => exact List.forall_mem_nil _
  | statement _ _ _ _ ih =>
    intro diagnostic among
    obtain ⟨blames, truthful⟩ := ih diagnostic among
    exact ⟨blames.imp_left (List.mem_append_right _), truthful⟩
  | @recovery count diagnostic statements diagnostics tokens rest refused blame present _ ih =>
    refine List.forall_mem_cons.mpr ⟨⟨?_, refused.truthful⟩, fun other among => ?_⟩
    · rw [← blame]
      exact (front_mem_or rest).imp_left (List.mem_append_right _)
    · obtain ⟨blames, truthful⟩ := ih other among
      have further := resumed_blamed_suffix count diagnostic tokens rest
      exact ⟨blames.imp_left fun held => further.subset held, truthful⟩

/-- Whatever tokens are parsed, every diagnostic blames one of them or the end of input, and what it
says about this token is true. -/
theorem parse_truthful (tokens : List Token) : ∀ diagnostic ∈ (parse tokens).2,
    (diagnostic.token ∈ tokens ∨ diagnostic.token = .endOfInput) ∧
      diagnostic.Truthful (some 128) :=
  (parse_run tokens).truthful

/-- A sign alone is no numeral. -/
theorem parse_truthful_sign :
    (parse [Token.integer "-", .semicolon]).2 = [⟨.badInteger "-", .integer "-"⟩] ∧
    (Token.integer "-" ∈ [Token.integer "-", .semicolon] ∨ Token.integer "-" = .endOfInput) ∧
    Diagnostic.Truthful (some 128) ⟨.badInteger "-", .integer "-"⟩ := by
  have refused : (parse [Token.integer "-", .semicolon]).2 = [⟨.badInteger "-", .integer "-"⟩] :=
    congrArg Prod.snd (parse_badInteger (by decide +kernel))
  have among : ⟨.badInteger "-", .integer "-"⟩ ∈ (parse [Token.integer "-", .semicolon]).2 := by
    rw [refused]
    exact .head _
  exact ⟨refused, parse_truthful _ _ among⟩

end ScriptReader
