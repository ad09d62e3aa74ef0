import ScriptReader.Proofs.Spelling

/-! # The last token of an expression

A conditional and a function end with a block, but what the last token of an expression is does not
follow from its form alone: parentheses around the whole leave no trace in the tree, and behind an
operator a block may stand at the end of an operation. The last token is a closing brace exactly
when the rightmost operand is a conditional or a function and does not stand in parentheses. The
form is right about the last token everywhere but in those two cases, and a semicolon may be left
out by the form, not by the last token.
-/

namespace ScriptReader

/-- The operand at the right end: that of an operator in front, the second one of an operator in
between, and any other expression itself. -/
def Expr.rightmost : Expr → Expr
  | .unary _ _ operand => operand.rightmost
  | .binary _ _ _ right => right.rightmost
  | value => value

/-- The form of an expression between these two tokens belies its last token: a conditional or a
function stands in parentheses of its own, or it is the rightmost operand of an operation and stands
in none. -/
def Expr.Belies (value : Expr) (first last : Token) : Prop :=
  value.endsWithBlock = true ∧ first.kind = .openParen ∨
    value.endsWithBlock = false ∧ value.rightmost.endsWithBlock = true ∧ last.kind ≠ .closeParen

theorem Expr.rightmost_of_endsWithBlock {value : Expr} (block : value.endsWithBlock = true) :
    value.rightmost = value := by
  cases value <;> first | rfl | cases block

/-! ### Writings -/

theorem Block.Written.getLast? {level : Nat} {block : Block} {tokens : List Token}
    (written : Block.Written level block tokens) :
    ∃ closing, tokens.getLast? = some closing ∧ closing.kind = .closeCurly := by
  cases written with
  | mk opens statements closes => exact ⟨_, List.getLast?_concat, closes⟩

theorem Expr.Listed.getLast? {level : Nat} {values : List Expr} {tokens : List Token}
    (listed : Expr.Listed level values tokens) :
    ∃ closing, tokens.getLast? = Option.some closing ∧ closing.kind = .closeParen := by
  cases listed with
  | none closes => exact ⟨_, rfl, closes⟩
  | some given closes => exact ⟨_, List.getLast?_concat, closes⟩

/-- What is written last is a closing brace just when the rightmost operand ends with a block and
stands in no parentheses. -/
theorem Expr.Written.getLast? {edge : Edge} {level : Nat} {value : Expr} {tokens : List Token}
    (written : Expr.Written edge level value tokens) : ∃ last, tokens.getLast? = some last ∧
      (last.kind = .closeCurly ↔
        value.rightmost.endsWithBlock = true ∧ last.kind ≠ .closeParen) := by
  cases written with
  | identifier named => exact ⟨_, rfl, by simp [named, rightmost, endsWithBlock]⟩
  | integer numeral => exact ⟨_, rfl, by simp [numeral, rightmost, endsWithBlock]⟩
  | boolean truth =>
    refine ⟨_, rfl, ?_⟩
    rcases truth with truth | truth <;> simp [truth, rightmost, endsWithBlock]
  | grouped _ _ closes => exact ⟨_, List.getLast?_concat, by simp [closes]⟩
  | unary _ inner =>
    obtain ⟨last, ends, closes⟩ := inner.getLast?
    exact ⟨last, by simp [List.getLast?_cons, ends], closes⟩
  | binary _ _ _ second =>
    obtain ⟨last, ends, closes⟩ := second.getLast?
    exact ⟨last, by simp [List.getLast?_cons, ends], closes⟩
  | call _ _ _ given =>
    obtain ⟨last, ends, closes⟩ := given.getLast?
    exact ⟨last, by simp [List.getLast?_cons, ends], by simp [closes, rightmost, endsWithBlock]⟩
  | conditional _ _ _ _ chosen =>
    obtain ⟨last, ends, closes⟩ := chosen.getLast?
    exact ⟨last, by simp [List.getLast?_cons, ends], by simp [closes, rightmost, endsWithBlock]⟩
  | choice _ _ _ _ _ _ left =>
    obtain ⟨last, ends, closes⟩ := left.getLast?
    exact ⟨last, by simp [List.getLast?_cons, ends], by simp [closes, rightmost, endsWithBlock]⟩
  | function _ _ _ does =>
    obtain ⟨last, ends, closes⟩ := does.getLast?
    exact ⟨last, by simp [List.getLast?_cons, ends], by simp [closes, rightmost, endsWithBlock]⟩

/-- A conditional or a function is written from its word to its closing brace, or else in
parentheses. -/
theorem Expr.Written.closeParen_iff {edge : Edge} {level : Nat} {value : Expr}
    {tokens : List Token} (written : Expr.Written edge level value tokens)
    (block : value.endsWithBlock = true) : ∀ last ∈ tokens.getLast?,
      (last.kind = .closeParen ↔ (front tokens).kind = .openParen) := by
  cases written with
  | grouped opens _ closes =>
    intro last ends
    rw [List.getLast?_concat] at ends
    cases ends
    simp [opens, closes]
  | conditional chooses _ _ _ chosen =>
    obtain ⟨last, ends, closes⟩ := chosen.getLast?
    simp [List.getLast?_cons, ends, closes, chooses]
  | choice chooses _ _ _ _ _ left =>
    obtain ⟨last, ends, closes⟩ := left.getLast?
    simp [List.getLast?_cons, ends, closes, chooses]
  | function defines _ _ does =>
    obtain ⟨last, ends, closes⟩ := does.getLast?
    simp [List.getLast?_cons, ends, closes, defines]
  | _ => cases block

/-! ### Parsers -/

namespace Parser

variable {p after : Parser (List Token)} {bound : Precedence} {value : Expr}

/-- An expression that is accepted is written in the tokens from the current one on, and its last
token is then the current one. -/
theorem written_of_expr (standard : p.rules = .standard)
    (ran : p.expr bound = .accepted value after) :
    ∃ edge level tokens, Expr.Written edge level value tokens ∧
      front tokens = p.current ∧ tokens.getLast? = some after.current := by
  have reads : (p.expr bound).Reads p [] (p.current :: p.peek :: p.source) (Expr.ReadAt p bound)
      (Expr.Refused p.limit p.nesting bound) := by
    refine (descent_judges p.fuel).expr bound standard ?_
    change 3 * (p.source.length + 2) + 1 ≤ 4 * (p.source.length + _) + 16
    omega
  rw [ran] at reads
  obtain ⟨tokens, rest, split, ⟨edge, level, written, -⟩, rfl⟩ := reads
  refine ⟨edge, level, tokens, written, ?_, ?_⟩
  · rw [← front_append_of_ne_nil written.ne_nil rest, ← split, front_cons]
  · obtain ⟨last, ends, -⟩ := written.getLast?
    rw [List.nil_append, window, ends]
    rfl

/-- Without a semicolon behind it, the expression is the statement if its form allows it. -/
theorem statement_of_expr (standard : p.rules = .standard)
    (ran : p.expr .lowest = .accepted value after)
    (plain : Rules.standard.statement p.current.kind = none)
    (bare : after.peek.kind ≠ .semicolon) :
    p.statement = if value.endsWithBlock = true then .accepted (.expression p.current value) after
      else .rejected (.unexpected .semicolon after.peek) after := by
  have plain : p.rules.statement p.current.kind = none := by rwa [standard]
  have ran : (descent p.fuel).expr .lowest p = .accepted value after := ran
  rw [statement, run, Descent.statement_eq_expressionStatement plain, Descent.expressionStatement,
    Parse.current_bind, Parse.bind_accepted ran, Parse.peek_bind, if_neg bare]
  split <;> rfl

theorem closeCurly_of_expr_iff (standard : p.rules = .standard)
    (ran : p.expr bound = .accepted value after) :
    after.current.kind = .closeCurly ↔
      value.rightmost.endsWithBlock = true ∧ after.current.kind ≠ .closeParen := by
  obtain ⟨edge, level, tokens, written, -, ends⟩ := written_of_expr standard ran
  obtain ⟨last, ends', closes⟩ := written.getLast?
  obtain rfl := Option.some.inj (ends.symm.trans ends')
  exact closes

theorem closeParen_of_expr_iff (standard : p.rules = .standard)
    (ran : p.expr bound = .accepted value after) (block : value.endsWithBlock = true) :
    after.current.kind = .closeParen ↔ p.current.kind = .openParen := by
  obtain ⟨edge, level, tokens, written, first, ends⟩ := written_of_expr standard ran
  have enclosed := written.closeParen_iff block _ ends
  rwa [first] at enclosed

/-- The form of an expression tells whether its last token is a closing brace, unless the one belies
the other. -/
theorem endsWithBlock_of_expr_iff (standard : p.rules = .standard)
    (ran : p.expr bound = .accepted value after) :
    (value.endsWithBlock = true ↔ after.current.kind = .closeCurly) ↔
      ¬ value.Belies p.current after.current := by
  have closes := closeCurly_of_expr_iff standard ran
  unfold Expr.Belies
  cases block : value.endsWithBlock with
  | true =>
    have enclosed := closeParen_of_expr_iff standard ran block
    rw [Expr.rightmost_of_endsWithBlock block, block] at closes
    simp [closes, enclosed]
  | false => simp [closes]

/-- After an expression has been read, its form agrees with the last token read just when it does
not belie it, and it is a statement without a semicolon by its form. So a semicolon may be left out
exactly behind a closing brace, but for the two cases: a conditional or function in parentheses is
accepted behind its parenthesis, and an operation refused behind the brace of its last operand. -/
theorem expr_endsWithBlock (standard : p.rules = .standard)
    (ran : p.expr bound = .accepted value after) :
    ((value.endsWithBlock = true ↔ after.current.kind = .closeCurly) ↔
      ¬ value.Belies p.current after.current) ∧
    (after.current.kind = .closeCurly ↔
      value.rightmost.endsWithBlock = true ∧ after.current.kind ≠ .closeParen) ∧
    (bound = .lowest → Rules.standard.statement p.current.kind = none →
      after.peek.kind ≠ .semicolon →
      (((∃ statement, p.statement = .accepted statement after) ↔
          after.current.kind = .closeCurly) ↔ ¬ value.Belies p.current after.current) ∧
      p.statement = if value.endsWithBlock = true then .accepted (.expression p.current value) after
        else .rejected (.unexpected .semicolon after.peek) after) := by
  have form := endsWithBlock_of_expr_iff standard ran
  refine ⟨form, closeCurly_of_expr_iff standard ran, ?_⟩
  rintro rfl plain bare
  have outcome := statement_of_expr standard ran plain bare
  have accepted :
      (∃ statement, p.statement = .accepted statement after) ↔ value.endsWithBlock = true := by
    rw [outcome]
    split <;> simp [*]
  exact ⟨by rw [accepted, form], outcome⟩

/-- The tree of a function without parameters and statements. -/
def emptyFunction : Expr := .function .fnWord [] (.mk .openCurly [])

/-- A function that stands alone is a statement, whatever follows. -/
theorem expr_endsWithBlock_function :
    ∃ p after : Parser (List Token), p = ofStream
        [Token.fnWord, .openParen, .closeParen, .openCurly, .closeCurly, .identifier "x"] ∧
      p.rules = .standard ∧ p.expr .lowest = .accepted emptyFunction after ∧
      after.current.kind = .closeCurly ∧
      p.statement = .accepted (.expression .fnWord emptyFunction) after := by
  refine ⟨_, (ofStream []).facing [.closeCurly, .identifier "x"], rfl, rfl, rfl, ?_⟩
  have told := @expr_endsWithBlock (ofStream
    [Token.fnWord, .openParen, .closeParen, .openCurly, .closeCurly, .identifier "x"])
    ((ofStream []).facing [.closeCurly, .identifier "x"]) .lowest emptyFunction rfl rfl
  exact ⟨told.2.1.mpr ⟨rfl, by decide⟩, (told.2.2 rfl rfl (by decide)).2⟩

/-- Behind an operator the form does not show the closing brace, and in parentheses it shows one
that is not the last token. -/
theorem expr_endsWithBlock_belied :
    (∃ p after : Parser (List Token), p = ofStream
        [⟨.minus, "-"⟩, .fnWord, .openParen, .closeParen, .openCurly, .closeCurly] ∧
      p.expr .lowest = .accepted (.unary ⟨.minus, "-"⟩ "-" emptyFunction) after ∧
      after.current.kind = .closeCurly ∧
      (Expr.unary ⟨.minus, "-"⟩ "-" emptyFunction).endsWithBlock = false ∧
      p.statement = .rejected (.unexpected .semicolon .endOfInput) after) ∧
    ∃ p after : Parser (List Token), p = ofStream
        [Token.openParen, .fnWord, .openParen, .closeParen, .openCurly, .closeCurly, .closeParen] ∧
      p.expr .lowest = .accepted emptyFunction after ∧
      after.current.kind = .closeParen ∧ emptyFunction.endsWithBlock = true ∧
      p.statement = .accepted (.expression .openParen emptyFunction) after :=
  ⟨⟨_, (ofStream []).facing [.closeCurly], rfl, rfl, rfl, rfl, rfl⟩,
    _, (ofStream []).facing [.closeParen], rfl, rfl, rfl, rfl, rfl⟩

end Parser

end ScriptReader
