import Mathlib.Data.List.Basic
import ScriptReader.Proofs.Completeness
import ScriptReader.Proofs.Refusal

/-! # Every refusal is rejected

A refusal determines what its rule does on every list that begins with its tokens and goes on with
the token it blames: the rule fails with that very diagnostic, whatever stands behind. The parser it
leaves has opened as many blocks as the refusal says.
-/

namespace ScriptReader

open Filter Parse Descent

/-- The rule refuses the tokens, whatever was read before and whatever stands behind the token that
it blames. -/
def Refuses {α : Type} (p : Parser (List Token)) (count : Nat) (diagnostic : Diagnostic)
    (tokens : List Token) (rule : Descent (List Token) → Parse (List Token) α) : Prop :=
  ∀ read rest, front rest = diagnostic.token →
    ∀ᶠ fuel in atTop, rule (descent fuel) (p.facing (tokens ++ rest)) =
      .rejected diagnostic ((p.opened count).facing (blamed diagnostic (read ++ tokens) rest))

/-- A refusal by the second of two rules is one by whatever goes on behind them. -/
theorem Parse.bind_bind_rejected {σ α β γ : Type} {first : Parse σ α} {second : Parse σ β}
    {p after : Parser σ} {diagnostic : Diagnostic} {next : α → β → Parse σ γ}
    (ran : (first >>= fun _ => second) p = .rejected diagnostic after) :
    (first >>= fun value => second >>= next value) p = .rejected diagnostic after := by
  change Parse.bind _ _ p = _ at ran ⊢
  unfold Parse.bind at ran ⊢
  cases begun : first p with
  | accepted value between =>
    rw [begun] at ran
    exact bind_rejected ran
  | rejected diagnostic between => rw [begun] at ran; cases ran; rfl
  | unfinished => rw [begun] at ran; cases ran

variable {p : Parser (List Token)} {count : Nat} {diagnostic : Diagnostic}
  {tokens others : List Token}

theorem Refuses.expect {expected : Kind} {token : Token} (other : token.kind ≠ expected)
    (inner : expected ≠ .closeCurly) (last : Token) :
    Refuses p 0 (.unexpected expected token) [last] fun _ => expect expected := by
  rintro read rest rfl
  refine Eventually.of_forall fun fuel => ?_
  rw [blamed_unexpected inner, window_append _ (by simp)]
  exact expect_rejected (List.cons_ne_nil last []) other

/-- A rule that begins with another one refuses what that one refuses. -/
theorem Refuses.bind {α β : Type} {first : Descent (List Token) → Parse (List Token) α}
    {next : Descent (List Token) → α → Parse (List Token) β}
    (refuses : Refuses p count diagnostic tokens first) :
    Refuses p count diagnostic tokens fun d => first d >>= next d := by
  intro read rest blame
  filter_upwards [refuses read rest blame] with fuel ran
  exact bind_rejected ran

section Names

theorem Name.RefusedList.rejected (refused : Name.RefusedList diagnostic tokens) :
    ∀ last, Refuses p 0 diagnostic (last :: tokens) fun d => d.parameters := by
  induction refused with
  | @name token other =>
    intro last read rest blame
    refine eventually_of_succ ?_
    filter_upwards [Refuses.expect (p := p) other (by decide) last read rest blame] with fuel ran
    exact bind_rejected ran
  | @later name comma diagnostic tokens named separated refused ih =>
    intro last read rest blame
    refine eventually_of_succ ?_
    filter_upwards [ih comma (read ++ [last, name]) rest blame] with fuel ran
    change (descent fuel).parametersStep _ = _
    simp only [List.cons_append, List.append_assoc, List.nil_append] at ran ⊢
    rw [parametersStep, bind_accepted (expect_cons named last _), peek_bind, Parser.peek_facing,
      List.tail_cons, front_cons, if_pos separated, advance_bind, Parser.advance_facing,
      List.tail_cons, bind_rejected ran]

theorem Name.Unlisted.rejected (refused : Name.Unlisted diagnostic tokens) (last : Token) :
    Refuses p 0 diagnostic (last :: tokens) fun d => d.parameterList := by
  cases refused with
  | name given refused =>
    intro read rest blame
    filter_upwards [refused.rejected last read rest blame] with fuel ran
    rw [← blame, ← front_append_eq] at given
    rw [parameterList, peek_bind, List.cons_append, Parser.peek_facing, List.tail_cons,
      if_neg given]
    exact bind_rejected ran
  | @close token names tokens given apart other =>
    rintro read rest rfl
    filter_upwards [given.accepted (p := p) (List.cons_ne_nil last []) apart] with fuel ran
    have first : (front (tokens ++ rest)).kind ≠ .closeParen := by
      rw [front_append_of_ne_nil given.ne_nil]
      simp [given.front_kind]
    rw [parameterList, peek_bind, List.cons_append, Parser.peek_facing, List.tail_cons,
      if_neg first, ← window_singleton, bind_accepted ran,
      bind_rejected (expect_rejected given.ne_nil other), blamed_unexpected (by decide),
      window_append _ (by simp), window_cons _ given.ne_nil]
    rfl

end Names

namespace Refuses

/-! ### Operands -/

theorem of_operandBy {rule : OperandRule} (standard : p.rules = .standard)
    (begins : Rules.standard.operand (front tokens).kind = some rule)
    (refuses : Refuses p count diagnostic tokens fun d => d.operandBy rule) :
    Refuses p count diagnostic tokens fun d => d.operand := by
  have nonempty : tokens ≠ [] := by
    rintro rfl
    cases begins
  intro read rest blame
  filter_upwards [refuses read rest blame] with fuel ran
  have table : (p.facing (tokens ++ rest)).rules.operand (p.facing (tokens ++ rest)).current.kind =
      some rule := by
    rw [Parser.current_facing, front_append_of_ne_nil nonempty, Parser.rules_facing, standard,
      begins]
  exact (operand_eq_operandBy table).trans ran

theorem start {token : Token} (standard : p.rules = .standard)
    (none : Rules.standard.operand token.kind = none) :
    Refuses p 0 (.noOperand token) [] fun d => d.operand := by
  intro read rest blame
  rw [Diagnostic.token_noOperand] at blame
  subst blame
  refine Eventually.of_forall fun fuel => ?_
  have table : (p.facing rest).rules.operand (p.facing rest).current.kind = Option.none := by
    rw [Parser.rules_facing, standard, Parser.current_facing, none]
  change (descent fuel).operand (p.facing rest) = _
  rw [operand_rejected table, blamed_noOperand]
  rfl

theorem integer {token : Token} (standard : p.rules = .standard) (numeral : token.kind = .integer)
    (unfit : Numeral.signed? token.literal = none) :
    Refuses p 0 ⟨.badInteger token.literal, token⟩ [] fun d => d.operand := by
  rintro read rest rfl
  refine Eventually.of_forall fun fuel => ?_
  have table : (p.facing rest).rules.operand (p.facing rest).current.kind = some .integer := by
    rw [Parser.rules_facing, standard, Parser.current_facing, numeral]
    rfl
  change (descent fuel).operand (p.facing rest) = _
  rw [operand_eq_operandBy table]
  exact integer_rejected unfit

theorem unary (operator : Token)
    (inner : Refuses p count diagnostic tokens fun d => d.expr .unary) :
    Refuses p count diagnostic (operator :: tokens) fun d => d.unary := by
  intro read rest blame
  filter_upwards [inner (read ++ [operator]) rest blame] with fuel ran
  rw [Descent.unary, current_bind, advance_bind, List.cons_append, Parser.advance_facing,
    List.tail_cons, bind_rejected ran, List.append_assoc]
  rfl

theorem grouping (opening : Token)
    (inner : Refuses p count diagnostic tokens fun d =>
      d.expr .lowest >>= fun _ => Parse.expect .closeParen) :
    Refuses p count diagnostic (opening :: tokens) fun d => d.grouping := by
  intro read rest blame
  filter_upwards [inner (read ++ [opening]) rest blame] with fuel ran
  rw [Descent.grouping, advance_bind, List.cons_append, Parser.advance_facing, List.tail_cons,
    bind_bind_rejected ran, List.append_assoc]
  rfl

theorem condition {token : Token} (word : Token) (other : token.kind ≠ .openParen) :
    Refuses p 0 (.unexpected .openParen token) [word] fun d => d.conditional := by
  intro read rest blame
  filter_upwards [Refuses.expect (p := p) other (by decide) word read rest blame] with fuel ran
  rw [Descent.conditional, current_bind, bind_rejected ran]

theorem tested {opening : Token} (word : Token) (opens : opening.kind = .openParen)
    (inner : Refuses p count diagnostic tokens fun d =>
      d.expr .lowest >>= fun _ => Parse.expect .closeParen) :
    Refuses p count diagnostic (word :: opening :: tokens) fun d => d.conditional := by
  intro read rest blame
  filter_upwards [inner (read ++ [word, opening]) rest blame] with fuel ran
  rw [Descent.conditional, current_bind, List.cons_append, List.cons_append,
    bind_accepted (expect_cons opens word _), advance_bind, Parser.advance_facing, List.tail_cons,
    bind_bind_rejected ran, List.append_assoc]
  rfl

/-- A condition has been read, and what is expected to be its first branch goes on. -/
theorem chosen {opening closing : Token} {edge : Edge} {level : Nat} {value : Expr}
    {block : List Token} (word : Token) (opens : opening.kind = .openParen)
    (standard : p.rules = .standard) (tested : Expr.Written edge level value tokens)
    (room : Room p.limit p.nesting level) (closes : closing.kind = .closeParen)
    (inner : Refuses p count diagnostic (closing :: block) fun d =>
      Parse.expect .openCurly >>= fun _ => d.block) :
    Refuses p count diagnostic (word :: opening :: tokens ++ closing :: block) fun d =>
      d.conditional := by
  intro read rest blame
  filter_upwards [inner (read ++ word :: opening :: tokens) rest blame,
    tested.recognized.closed standard room closes rfl (by decide) (block ++ rest)]
    with fuel ran ran'
  simp only [List.cons_append, List.append_assoc] at ran ⊢
  rw [Descent.conditional, current_bind, bind_accepted (expect_cons opens word _), advance_bind,
    Parser.advance_facing, List.tail_cons, ran', bind_bind_rejected ran]

/-- The first branch has been read, and the second one goes on. -/
theorem left {opening closing otherwise : Token} {edge : Edge} {level deep : Nat} {value : Expr}
    {consequence : Block} {block other : List Token} (word : Token)
    (opens : opening.kind = .openParen) (standard : p.rules = .standard)
    (tested : Expr.Written edge level value tokens) (room : Room p.limit p.nesting level)
    (closes : closing.kind = .closeParen) (chosen : Block.Written deep consequence block)
    (space : Room p.limit p.nesting deep) (turns : otherwise.kind = .elseWord)
    (inner : Refuses p count diagnostic (otherwise :: other) fun d =>
      Parse.expect .openCurly >>= fun _ => d.block) :
    Refuses p count diagnostic
      (word :: opening :: tokens ++ closing :: block ++ otherwise :: other) fun d =>
      d.conditional := by
  intro read rest blame
  have nonempty := chosen.ne_nil
  filter_upwards [inner (read ++ word :: opening :: tokens ++ closing :: block) rest blame,
    tested.recognized.closed standard room closes rfl (by decide)
      (block ++ otherwise :: (other ++ rest)),
    chosen.recognized.braced standard space (List.cons_ne_nil closing [])
      (otherwise :: (other ++ rest))] with fuel ran ran' ran''
  simp only [window_singleton] at ran''
  simp only [List.cons_append, List.append_assoc] at ran ⊢
  rw [Descent.conditional, current_bind, bind_accepted (expect_cons opens word _), advance_bind,
    Parser.advance_facing, List.tail_cons, ran', ran'', bind_rejected]
  rw [Descent.alternative, peek_bind, Parser.peek_window _ nonempty, front_cons, if_pos turns,
    advance_bind, Parser.advance_window _ nonempty, bind_bind_rejected ran]

theorem function {token : Token} (word : Token) (other : token.kind ≠ .openParen) :
    Refuses p 0 (.unexpected .openParen token) [word] fun d => d.function := by
  intro read rest blame
  filter_upwards [Refuses.expect (p := p) other (by decide) word read rest blame] with fuel ran
  rw [Descent.function, current_bind, bind_rejected ran]

theorem parameters {opening : Token} (word : Token) (opens : opening.kind = .openParen)
    (inner : Refuses p count diagnostic (opening :: tokens) fun d => d.parameterList) :
    Refuses p count diagnostic (word :: opening :: tokens) fun d => d.function := by
  intro read rest blame
  filter_upwards [inner (read ++ [word]) rest blame] with fuel ran
  simp only [List.cons_append, List.append_assoc, List.nil_append] at ran ⊢
  rw [Descent.function, current_bind, bind_accepted (expect_cons opens word _), bind_rejected ran]

theorem does {opening : Token} {names : List Name} {block : List Token} (word : Token)
    (opens : opening.kind = .openParen) (parameters : Name.Listed names tokens)
    (inner : ∀ last, Refuses p count diagnostic (last :: block) fun d =>
      Parse.expect .openCurly >>= fun _ => d.block) :
    Refuses p count diagnostic (word :: opening :: tokens ++ block) fun d => d.function := by
  intro read rest blame
  obtain ⟨earlier, last, rfl⟩ := tokens.eq_nil_or_concat'.resolve_left parameters.ne_nil
  filter_upwards [inner last (read ++ word :: opening :: earlier) rest blame,
    parameters.accepted (p := p) (List.cons_ne_nil opening []) (block ++ rest)] with fuel ran ran'
  simp only [List.cons_append, List.append_assoc, List.nil_append, window_singleton,
    window_append_cons] at ran ran' ⊢
  rw [Descent.function, current_bind, bind_accepted (expect_cons opens word _),
    bind_accepted ran', bind_bind_rejected ran]

/-! ### Expressions -/

theorem tooDeep {most : Nat} {bound : Precedence} {token : Token} (limited : p.limit = some most)
    (full : most ≤ p.nesting) :
    Refuses p 0 ⟨.tooDeep most, token⟩ [] fun d => d.expr bound := by
  rintro read rest rfl
  refine eventually_of_succ (Eventually.of_forall fun fuel => ?_)
  exact exprStep_full (p.facing rest) limited full bound

/-- What refuses one level deeper refuses the expression. -/
theorem deeper {bound : Precedence} (room : Room p.limit p.nesting 1)
    (inner : Refuses p.deeper count diagnostic tokens fun d => d.operand >>= d.operators bound) :
    Refuses p count diagnostic tokens fun d => d.expr bound := by
  intro read rest blame
  refine eventually_of_succ ?_
  filter_upwards [inner read rest blame] with fuel ran
  change (descent fuel).exprStep bound _ = _
  rw [exprStep_room (p.facing (tokens ++ rest)) room]
  change (((descent fuel).operand >>= (descent fuel).operators bound)
    (p.deeper.facing (tokens ++ rest))).mapAfter Parser.exitNesting = _
  rw [ran]
  rfl

/-- An operator behind a written operand is taken, and what follows it is refused. -/
theorem operator {operator : Token} {rule : OperatorRule} {bound : Precedence} {edge : Edge}
    {level : Nat} {value : Expr} (standard : p.rules = .standard)
    (operates : Rules.standard.operator operator.kind = some rule)
    (first : Expr.Written edge level value tokens) (room : Room p.limit p.nesting level)
    (weak : bound < .call) (taken : bound < Rules.standard.level operator.kind)
    (loose : Rules.standard.level operator.kind ≤ edge.strength)
    (inner : Refuses p.deeper count diagnostic (operator :: others) fun d =>
      d.operatorBy value (Rules.standard.level operator.kind) rule) :
    Refuses p.deeper count diagnostic (tokens ++ operator :: others) fun d =>
      d.operand >>= d.operators bound := by
  intro read rest blame
  have nonempty := first.ne_nil
  have between : edge.EndsBefore edge.strength operator.kind := by
    refine ⟨loose, fun _ same => ?_⟩
    rw [same] at operates
    cases operates
  rw [List.append_assoc, List.cons_append]
  refine first.recognized.leads standard room weak (.inl (Nat.lt_of_lt_of_le taken loose))
    between ?_
  have held := Parser.peek_window p.deeper nonempty (operator :: (others ++ rest))
  have table : (p.deeper.facing (window tokens (operator :: (others ++ rest)))).rules = .standard :=
    standard
  refine eventually_of_succ ?_
  filter_upwards [inner (read ++ tokens) rest blame] with fuel ran
  change (descent fuel).operatorsStep bound value _ = _
  rw [operatorsStep_taken (by rwa [held, table]) (by rwa [held, table]), held, table,
    Parser.advance_window _ nonempty]
  rw [List.append_assoc] at ran
  exact bind_rejected ran

theorem binary {level : Precedence} {value : Expr} (operator : Token)
    (inner : Refuses p count diagnostic tokens fun d => d.expr level) :
    Refuses p count diagnostic (operator :: tokens) fun d => d.operatorBy value level .binary := by
  intro read rest blame
  filter_upwards [inner (read ++ [operator]) rest blame] with fuel ran
  change (descent fuel).binary _ _ _ = _
  rw [Descent.binary, current_bind, advance_bind, List.cons_append, Parser.advance_facing,
    List.tail_cons, bind_rejected ran, List.append_assoc]
  rfl

theorem call {level : Precedence} {value : Expr} {opening : Token}
    (inner : Refuses p count diagnostic (opening :: tokens) fun d => d.argumentList) :
    Refuses p count diagnostic (opening :: tokens) fun d => d.operatorBy value level .call := by
  intro read rest blame
  filter_upwards [inner read rest blame] with fuel ran
  change (descent fuel).call _ _ = _
  rw [Descent.call, current_bind, bind_rejected ran]

/-- A written expression is not followed by the token that has to close it. -/
theorem close {token : Token} {closer : Kind} {edge : Edge} {level : Nat} {value : Expr}
    (standard : p.rules = .standard) (given : Expr.Written edge level value tokens)
    (room : Room p.limit p.nesting level) (ends : edge.EndsBefore .lowest token.kind)
    (other : token.kind ≠ closer) (inner : closer ≠ .closeCurly) :
    Refuses p 0 (.unexpected closer token) tokens fun d =>
      d.expr .lowest >>= fun _ => Parse.expect closer := by
  rintro read rest rfl
  filter_upwards [given.recognized.accepted standard room (by decide) given.fits_lowest ends]
    with fuel ran
  rw [bind_accepted ran, expect_rejected given.ne_nil other, blamed_unexpected inner,
    window_append _ given.ne_nil]
  rfl

theorem argument (inner : Refuses p count diagnostic tokens fun d => d.expr .lowest) :
    Refuses p count diagnostic tokens fun d => d.arguments := by
  intro read rest blame
  refine eventually_of_succ ?_
  filter_upwards [inner read rest blame] with fuel ran
  exact bind_rejected ran

theorem argument_later {comma : Token} {edge : Edge} {level : Nat} {value : Expr}
    (standard : p.rules = .standard) (first : Expr.Written edge level value tokens)
    (room : Room p.limit p.nesting level) (separated : comma.kind = .comma)
    (inner : Refuses p count diagnostic others fun d => d.arguments) :
    Refuses p count diagnostic (tokens ++ comma :: others) fun d => d.arguments := by
  intro read rest blame
  have between : edge.EndsBefore .lowest (front (comma :: (others ++ rest))).kind := by
    rw [front_cons, separated]
    exact edge.endsBefore_lowest rfl (by decide)
  refine eventually_of_succ ?_
  filter_upwards [first.recognized.accepted standard room (by decide) first.fits_lowest between,
    inner (read ++ tokens ++ [comma]) rest blame] with fuel ran ran'
  change (descent fuel).argumentsStep _ = _
  simp only [List.cons_append, List.append_assoc, List.nil_append] at ran' ⊢
  rw [argumentsStep, bind_accepted ran, peek_bind, Parser.peek_window _ first.ne_nil, front_cons,
    if_pos separated, advance_bind, Parser.advance_window _ first.ne_nil, advance_bind,
    Parser.advance_facing, List.tail_cons, bind_rejected ran']

theorem argumentList (opening : Token)
    (given : (front (tokens ++ [diagnostic.token])).kind ≠ .closeParen)
    (inner : Refuses p count diagnostic tokens fun d => d.arguments) :
    Refuses p count diagnostic (opening :: tokens) fun d => d.argumentList := by
  intro read rest blame
  rw [← blame, ← front_append_eq] at given
  filter_upwards [inner (read ++ [opening]) rest blame] with fuel ran
  rw [Descent.argumentList, peek_bind, advance_bind, List.cons_append, Parser.peek_facing,
    Parser.advance_facing, List.tail_cons, if_neg given, bind_rejected ran, List.append_assoc]
  rfl

theorem argumentList_close {token : Token} {edge : Edge} {level : Nat} {values : List Expr}
    (opening : Token) (standard : p.rules = .standard)
    (given : Expr.WrittenList edge level values tokens) (room : Room p.limit p.nesting level)
    (ends : edge.EndsBefore .lowest token.kind) (apart : token.kind ≠ .comma)
    (other : token.kind ≠ .closeParen) :
    Refuses p 0 (.unexpected .closeParen token) (opening :: tokens) fun d => d.argumentList := by
  rintro read rest rfl
  have first : (front (tokens ++ rest)).kind ≠ .closeParen := by
    rw [front_append_of_ne_nil given.ne_nil]
    exact given.front_ne rfl
  filter_upwards [given.recognized.accepted standard room ends apart] with fuel ran
  rw [Descent.argumentList, peek_bind, advance_bind, List.cons_append, Parser.peek_facing,
    Parser.advance_facing, List.tail_cons, if_neg first, bind_accepted ran,
    bind_rejected (expect_rejected given.ne_nil other), blamed_unexpected (by decide),
    window_append _ (by simp), window_cons _ given.ne_nil]
  rfl

/-! ### Statements and blocks -/

theorem name {word token : Token} (standard : p.rules = .standard) (declares : word.kind = .varWord)
    (other : token.kind ≠ .identifier) :
    Refuses p 0 (.unexpected .identifier token) [word] fun d => d.statement := by
  intro read rest blame
  have begins : Rules.standard.statement word.kind = some .declaration := by rw [declares]; rfl
  filter_upwards [Refuses.expect (p := p) other (by decide) word read rest blame] with fuel ran
  rw [List.singleton_append, statement_eq_statementBy (by rwa [Parser.rules_facing, standard])]
  change (descent fuel).declaration _ = _
  rw [Descent.declaration, current_bind]
  exact bind_rejected ran

theorem assign {word name token : Token} (standard : p.rules = .standard)
    (declares : word.kind = .varWord) (named : name.kind = .identifier)
    (other : token.kind ≠ .assign) :
    Refuses p 0 (.unexpected .assign token) [word, name] fun d => d.statement := by
  intro read rest blame
  have begins : Rules.standard.statement word.kind = some .declaration := by rw [declares]; rfl
  filter_upwards [Refuses.expect (p := p) other (by decide) name (read ++ [word]) rest blame]
    with fuel ran
  simp only [List.cons_append, List.append_assoc, List.nil_append] at ran ⊢
  rw [statement_eq_statementBy (by rwa [Parser.rules_facing, standard])]
  change (descent fuel).declaration _ = _
  rw [Descent.declaration, current_bind, bind_accepted (expect_cons named word _),
    bind_rejected ran]

theorem declaration {word name assign : Token} (standard : p.rules = .standard)
    (declares : word.kind = .varWord) (named : name.kind = .identifier)
    (assigns : assign.kind = .assign)
    (inner : Refuses p count diagnostic tokens fun d =>
      d.expr .lowest >>= fun _ => Parse.expect .semicolon) :
    Refuses p count diagnostic (word :: name :: assign :: tokens) fun d => d.statement := by
  intro read rest blame
  have begins : Rules.standard.statement word.kind = some .declaration := by rw [declares]; rfl
  filter_upwards [inner (read ++ [word, name, assign]) rest blame] with fuel ran
  simp only [List.cons_append, List.append_assoc, List.nil_append] at ran ⊢
  rw [statement_eq_statementBy (by rwa [Parser.rules_facing, standard])]
  change (descent fuel).declaration _ = _
  rw [Descent.declaration, current_bind, bind_accepted (expect_cons named word _),
    bind_accepted (expect_cons assigns name _), advance_bind, Parser.advance_facing, List.tail_cons,
    bind_bind_rejected ran]

theorem ret {word : Token} (standard : p.rules = .standard) (returns : word.kind = .returnWord)
    (inner : Refuses p count diagnostic tokens fun d =>
      d.expr .lowest >>= fun _ => Parse.expect .semicolon) :
    Refuses p count diagnostic (word :: tokens) fun d => d.statement := by
  intro read rest blame
  have begins : Rules.standard.statement word.kind = some .ret := by rw [returns]; rfl
  filter_upwards [inner (read ++ [word]) rest blame] with fuel ran
  simp only [List.cons_append, List.append_assoc, List.nil_append] at ran ⊢
  rw [statement_eq_statementBy (by rwa [Parser.rules_facing, standard])]
  change (descent fuel).ret _ = _
  rw [Descent.ret, current_bind, advance_bind, Parser.advance_facing, List.tail_cons,
    bind_bind_rejected ran]

theorem expression (standard : p.rules = .standard)
    (plain : Rules.standard.statement (front (tokens ++ [diagnostic.token])).kind = none)
    (inner : Refuses p count diagnostic tokens fun d => d.expr .lowest) :
    Refuses p count diagnostic tokens fun d => d.statement := by
  intro read rest blame
  rw [← blame, ← front_append_eq] at plain
  filter_upwards [inner read rest blame] with fuel ran
  rw [statement_eq_expressionStatement (by rwa [Parser.rules_facing, standard]),
    expressionStatement,
    current_bind, bind_rejected ran]

theorem semicolon {token : Token} {edge : Edge} {level : Nat} {value : Expr}
    (standard : p.rules = .standard) (given : Expr.Written edge level value tokens)
    (room : Room p.limit p.nesting level) (ends : edge.EndsBefore .lowest token.kind)
    (opened : value.endsWithBlock = false) (other : token.kind ≠ .semicolon) :
    Refuses p 0 (.unexpected .semicolon token) tokens fun d => d.statement := by
  rintro read rest rfl
  filter_upwards [given.recognized.accepted standard room (by decide) given.fits_lowest ends]
    with fuel ran
  rw [given.recognized.plain standard, expressionStatement, current_bind, bind_accepted ran,
    peek_bind, Parser.peek_window _ given.ne_nil, if_neg other, opened,
    blamed_unexpected (by decide),
    window_append _ given.ne_nil]
  rfl

theorem first (inside : (front (tokens ++ [diagnostic.token])).kind ≠ .closeCurly)
    (present : (front (tokens ++ [diagnostic.token])).kind ≠ .endOfInput)
    (inner : Refuses p count diagnostic tokens fun d => d.statement) :
    Refuses p count diagnostic tokens fun d => d.statements := by
  intro read rest blame
  rw [← blame, ← front_append_eq] at inside present
  refine eventually_of_succ ?_
  filter_upwards [inner read rest blame] with fuel ran
  change (descent fuel).statementsStep _ = _
  rw [statementsStep, current_bind, Parser.current_facing, if_neg inside, if_neg present,
    bind_rejected ran]

theorem later {ending : Option Edge} {level : Nat} {statement : Stmt}
    (standard : p.rules = .standard)
    (written : Stmt.Written ending level statement tokens) (room : Room p.limit p.nesting level)
    (apart : Apart ending (front (others ++ [diagnostic.token])).kind)
    (inner : Refuses p count diagnostic others fun d => d.statements) :
    Refuses p count diagnostic (tokens ++ others) fun d => d.statements := by
  intro read rest blame
  rw [← blame, ← front_append_eq] at apart
  have ⟨inside, present⟩ := written.front_kind
  rw [← front_append_of_ne_nil written.ne_nil (others ++ rest)] at inside present
  refine eventually_of_succ ?_
  filter_upwards [written.recognized.accepted standard room apart,
    inner (read ++ tokens) rest blame] with fuel ran ran'
  rw [List.append_assoc] at ran' ⊢
  change (descent fuel).statementsStep _ = _
  rw [statementsStep, current_bind, Parser.current_facing, if_neg inside, if_neg present,
    bind_accepted ran, advance_bind, Parser.advance_window _ written.ne_nil, bind_rejected ran']

theorem ended {token : Token} (last : token.kind = .endOfInput) :
    Refuses p 0 (.unexpected .closeCurly token) [] fun d => d.statements := by
  rintro read rest rfl
  refine eventually_of_succ (Eventually.of_forall fun fuel => ?_)
  have opened : (front rest).kind ≠ .closeCurly := by simp [last]
  change (descent fuel).statementsStep (p.facing rest) = _
  rw [statementsStep, current_bind, Parser.current_facing, if_neg opened, if_pos last, reject_apply]
  rfl

theorem brace {token : Token} (last : Token) (other : token.kind ≠ .openCurly) :
    Refuses p 0 (.unexpected .openCurly token) [last] fun d =>
      Parse.expect .openCurly >>= fun _ => d.block :=
  (Refuses.expect other (by decide) last).bind

theorem block {opening : Token} (last : Token) (opens : opening.kind = .openCurly)
    (inner : Refuses p.enterBlock count diagnostic tokens fun d => d.statements) :
    Refuses p (count + 1) diagnostic (last :: opening :: tokens) fun d =>
      Parse.expect .openCurly >>= fun _ => d.block := by
  intro read rest blame
  filter_upwards [inner (read ++ [last, opening]) rest blame] with fuel ran
  simp only [List.cons_append, List.append_assoc, List.nil_append] at ran ⊢
  rw [bind_accepted (expect_cons opens last _), Descent.block, current_bind, advance_bind,
    modify_bind, Parser.advance_facing, List.tail_cons, Parser.enterBlock_facing, bind_rejected ran,
    Parser.enterBlock_opened]

end Refuses

/-- The statements of a block up to the end of input. -/
theorem Stmt.WrittenList.unended : ∀ {level : Nat} {body : List Stmt} {tokens : List Token},
    Stmt.WrittenList level body tokens → ∀ {p : Parser (List Token)} {token : Token},
      p.rules = .standard → Room p.limit p.nesting level → token.kind = .endOfInput →
      Refuses p 0 (.unexpected .closeCurly token) tokens fun d => d.statements
  | _, _, _, .nil, _, _, _, _, last => .ended last
  | _, _, _, .cons first apart rest, _, _, standard, room, last =>
    have between := apart_front apart (apart_of_kind (.inr (.inl last)) _)
    .later standard first (room.mono (by omega)) between
      (rest.unended standard (room.mono (by omega)) last)

/-- The parser follows the rules of the language, with a given limit and inside a given number of
expressions. -/
structure Parser.Stands (p : Parser (List Token)) (limit : Option Nat) (nest : Nat) : Prop where
  standard : p.rules = .standard
  limit_eq : p.limit = limit
  nesting_eq : p.nesting = nest

namespace Parser.Stands

variable {limit : Option Nat} {nest : Nat}

theorem deeper (stands : p.Stands limit nest) : p.deeper.Stands limit (nest + 1) :=
  ⟨stands.standard, stands.limit_eq, congrArg (· + 1) stands.nesting_eq⟩

theorem enterBlock (stands : p.Stands limit nest) : p.enterBlock.Stands limit nest :=
  ⟨stands.standard, stands.limit_eq, stands.nesting_eq⟩

theorem room {level : Nat} (stands : p.Stands limit nest) (room : Room limit nest level) :
    Room p.limit p.nesting level := by
  rwa [stands.limit_eq, stands.nesting_eq]

end Parser.Stands

mutual

theorem Expr.Refused.rejected {limit : Option Nat} : ∀ {nest : Nat} {bound : Precedence}
    {count : Nat} {diagnostic : Diagnostic} {tokens : List Token},
    Expr.Refused limit nest bound count diagnostic tokens → ∀ {p : Parser (List Token)},
      p.Stands limit nest → bound < .call → Refuses p count diagnostic tokens fun d => d.expr bound
  | _, _, _, _, _, .tooDeep limited full => fun stands _ =>
    .tooDeep (stands.limit_eq.trans limited) (by rwa [stands.nesting_eq])
  | _, _, _, _, _, .operand room inner => fun stands _ =>
    .deeper (stands.room room) (inner.rejected stands.deeper).bind
  | _, _, _, _, _, .right operates first room taken loose second => fun stands weak =>
    have inner := second.rejected stands.deeper
      (Nat.lt_trans (Rules.level_binary operates).2 (by decide))
    have place := Room.mono room (by have := first.level_pos; omega)
    .deeper (stands.room place) (.operator stands.standard operates first (stands.room room) weak
      taken loose (.binary _ inner))
  | _, _, _, _, _, .arguments opens first room taken tight given => fun stands weak =>
    have place := Room.mono room (by have := first.level_pos; omega)
    .deeper (stands.room place) (.operator stands.standard (by rw [opens]; rfl) first
      (stands.room room) weak (by rwa [opens]) (by rw [tight]; exact Precedence.le_call _)
      (.call (given.rejected stands.deeper _)))

theorem Expr.RefusedOperand.rejected {limit : Option Nat} : ∀ {nest count : Nat}
    {diagnostic : Diagnostic} {tokens : List Token},
    Expr.RefusedOperand limit nest count diagnostic tokens → ∀ {p : Parser (List Token)},
      p.Stands limit nest → Refuses p count diagnostic tokens fun d => d.operand
  | _, _, _, _, .start absent => fun stands => .start stands.standard absent
  | _, _, _, _, .integer numeral unfit => fun stands => .integer stands.standard numeral unfit
  | _, _, _, _, .unary operates inner => fun stands =>
    .of_operandBy stands.standard (Rules.operand_unary operates)
      (.unary _ (inner.rejected stands (by decide)))
  | _, _, _, _, .grouped opens inner => fun stands =>
    .of_operandBy stands.standard (by rw [front_cons, opens]; rfl)
      (.grouping _ (inner.rejected stands (by decide)))
  | _, _, _, _, .condition chooses other => fun stands =>
    .of_operandBy stands.standard (by rw [front_cons, chooses]; rfl) (.condition _ other)
  | _, _, _, _, .tested chooses opens inner => fun stands =>
    .of_operandBy stands.standard (by rw [front_cons, chooses]; rfl)
      (.tested _ opens (inner.rejected stands (by decide)))
  | _, _, _, _, .chosen chooses opens tested room closes inner => fun stands =>
    .of_operandBy stands.standard (by rw [List.cons_append, front_cons, chooses]; rfl)
      (.chosen _ opens stands.standard tested (stands.room room) closes (inner.rejected stands _))
  | _, _, _, _, .left chooses opens tested room closes chosen space turns inner => fun stands =>
    .of_operandBy stands.standard
      (by rw [List.cons_append, List.cons_append, front_cons, chooses]; rfl)
      (.left _ opens stands.standard tested (stands.room room) closes chosen
        (stands.room space) turns
        (inner.rejected stands _))
  | _, _, _, _, .function defines other => fun stands =>
    .of_operandBy stands.standard (by rw [front_cons, defines]; rfl) (.function _ other)
  | _, _, _, _, .parameters defines opens inner => fun stands =>
    .of_operandBy stands.standard (by rw [front_cons, defines]; rfl)
      (.parameters _ opens (inner.rejected _))
  | _, _, _, _, .does defines opens parameters inner => fun stands =>
    .of_operandBy stands.standard (by rw [List.cons_append, front_cons, defines]; rfl)
      (.does _ opens parameters (inner.rejected stands))

theorem Expr.Unclosed.rejected {limit : Option Nat} : ∀ {nest : Nat} {closer : Kind} {count : Nat}
    {diagnostic : Diagnostic} {tokens : List Token},
    Expr.Unclosed limit nest closer count diagnostic tokens → ∀ {p : Parser (List Token)},
      p.Stands limit nest → closer ≠ .closeCurly →
      Refuses p count diagnostic tokens fun d => d.expr .lowest >>= fun _ => expect closer
  | _, _, _, _, _, .inner inner => fun stands _ => (inner.rejected stands (by decide)).bind
  | _, _, _, _, _, .close given room ends other => fun stands inner =>
    .close stands.standard given (stands.room room) ends other inner

theorem Expr.RefusedList.rejected {limit : Option Nat} : ∀ {nest count : Nat}
    {diagnostic : Diagnostic} {tokens : List Token},
    Expr.RefusedList limit nest count diagnostic tokens → ∀ {p : Parser (List Token)},
      p.Stands limit nest → Refuses p count diagnostic tokens fun d => d.arguments
  | _, _, _, _, .first inner => fun stands => .argument (inner.rejected stands (by decide))
  | _, _, _, _, .later first room separated rest => fun stands =>
    .argument_later stands.standard first (stands.room room) separated (rest.rejected stands)

theorem Expr.Unlisted.rejected {limit : Option Nat} : ∀ {nest count : Nat}
    {diagnostic : Diagnostic} {tokens : List Token},
    Expr.Unlisted limit nest count diagnostic tokens → ∀ {p : Parser (List Token)},
      p.Stands limit nest → ∀ opening,
      Refuses p count diagnostic (opening :: tokens) fun d => d.argumentList
  | _, _, _, _, .argument given rest => fun stands opening =>
    .argumentList opening given (rest.rejected stands)
  | _, _, _, _, .close given room ends apart other => fun stands opening =>
    .argumentList_close opening stands.standard given (stands.room room) ends apart other

theorem Stmt.Refused.rejected {limit : Option Nat} : ∀ {nest count : Nat}
    {diagnostic : Diagnostic} {tokens : List Token},
    Stmt.Refused limit nest count diagnostic tokens → ∀ {p : Parser (List Token)},
      p.Stands limit nest → Refuses p count diagnostic tokens fun d => d.statement
  | _, _, _, _, .name declares other => fun stands => .name stands.standard declares other
  | _, _, _, _, .assign declares named other => fun stands =>
    .assign stands.standard declares named other
  | _, _, _, _, .declaration declares named assigns inner => fun stands =>
    .declaration stands.standard declares named assigns (inner.rejected stands (by decide))
  | _, _, _, _, .ret returns inner => fun stands =>
    .ret stands.standard returns (inner.rejected stands (by decide))
  | _, _, _, _, .expression plain inner => fun stands =>
    .expression stands.standard plain (inner.rejected stands (by decide))
  | _, _, _, _, .semicolon given room ends opened other => fun stands =>
    .semicolon stands.standard given (stands.room room) ends opened other

theorem Stmt.RefusedList.rejected {limit : Option Nat} : ∀ {closer : Kind} {nest count : Nat}
    {diagnostic : Diagnostic} {tokens : List Token},
    Stmt.RefusedList limit closer nest count diagnostic tokens → ∀ {p : Parser (List Token)},
      p.Stands limit nest → closer = .closeCurly →
      Refuses p count diagnostic tokens fun d => d.statements
  | _, _, _, _, _, .first inside present inner => fun stands same =>
    .first (same ▸ inside) present (inner.rejected stands)
  | _, _, _, _, _, .later first room apart rest => fun stands same =>
    .later stands.standard first (stands.room room) apart (rest.rejected stands same)

theorem Block.Refused.rejected {limit : Option Nat} : ∀ {nest count : Nat}
    {diagnostic : Diagnostic} {tokens : List Token},
    Block.Refused limit nest count diagnostic tokens → ∀ {p : Parser (List Token)},
      p.Stands limit nest → ∀ last, Refuses p count diagnostic (last :: tokens) fun d =>
        expect .openCurly >>= fun _ => d.block
  | _, _, _, _, .brace other => fun _ last => .brace last other
  | _, _, _, _, .statement opens body => fun stands last =>
    .block last opens (body.rejected stands.enterBlock rfl)
  | _, _, _, _, .close opens given room ended => fun stands last =>
    .block last opens (given.unended stands.standard (stands.room room) ended)

end

end ScriptReader
