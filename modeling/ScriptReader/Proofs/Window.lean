import ScriptReader.Parser.Recursion

/-! # Parsers over a list of tokens

A parser that reads a list is determined by the tokens it still faces, the one under examination
first, and by its counters. The equations below run a rule step by step on such a parser: binding,
the primitive steps, and the checked advance, which either takes the token it wants or blames the
one it meets.
-/

namespace ScriptReader

/-- A list of tokens without an end of input among them. -/
def Plain (tokens : List Token) : Prop := ∀ token ∈ tokens, token.kind ≠ .endOfInput

instance (tokens : List Token) : Decidable (Plain tokens) :=
  inferInstanceAs (Decidable (∀ token ∈ tokens, token.kind ≠ .endOfInput))

theorem plain_append {tokens rest : List Token} :
    Plain (tokens ++ rest) ↔ Plain tokens ∧ Plain rest :=
  List.forall_mem_append

theorem plain_cons {token : Token} {tokens : List Token} :
    Plain (token :: tokens) ↔ token.kind ≠ .endOfInput ∧ Plain tokens :=
  List.forall_mem_cons

theorem Plain.suffix {tokens rest : List Token} (plain : Plain tokens) (suffix : rest <:+ tokens) :
    Plain rest :=
  fun token among => plain token (suffix.subset among)

/-- The first token of a list, or the end of input. -/
def front (tokens : List Token) : Token := tokens.headD .endOfInput

@[simp] theorem front_nil : front [] = .endOfInput := rfl

@[simp] theorem front_cons (token : Token) (tokens : List Token) :
    front (token :: tokens) = token :=
  rfl

@[simp] theorem front_append_cons (tokens : List Token) (token : Token) (rest : List Token) :
    front (tokens ++ token :: rest) = front (tokens ++ [token]) := by
  cases tokens <;> rfl

theorem front_append_of_ne_nil {tokens : List Token} (nonempty : tokens ≠ []) (rest : List Token) :
    front (tokens ++ rest) = front tokens := by
  cases tokens with
  | nil => exact (nonempty rfl).elim
  | cons => rfl

theorem Plain.front {tokens : List Token} (plain : Plain tokens) (nonempty : tokens ≠ []) :
    (front tokens).kind ≠ .endOfInput := by
  cases tokens with
  | nil => exact (nonempty rfl).elim
  | cons token rest => exact (plain_cons.mp plain).1

/-- Only the first token of what follows matters for the first token of the whole. -/
theorem front_append_eq (tokens rest : List Token) :
    front (tokens ++ rest) = front (tokens ++ [front rest]) := by
  cases tokens <;> rfl

theorem exists_cons_of_front {tokens : List Token} {kind : Kind}
    (found : (front tokens).kind = kind)
    (present : kind ≠ .endOfInput) : ∃ token rest, tokens = token :: rest ∧ token.kind = kind := by
  cases tokens with
  | nil => exact (present found.symm).elim
  | cons token rest => exact ⟨token, rest, rfl, found⟩

/-- What a parser faces that has read one list and not yet the other: the last token read is still
under examination. -/
def window (read rest : List Token) : List Token := read.getLast?.toList ++ rest

@[simp] theorem window_singleton (token : Token) (rest : List Token) :
    window [token] rest = token :: rest := rfl

@[simp] theorem window_append_cons (earlier : List Token) (token : Token) (read rest : List Token) :
    window (earlier ++ token :: read) rest = window (token :: read) rest := by
  simp only [window, List.getLast?_append, List.getLast?_cons, Option.some_or]

theorem window_concat (read : List Token) (token : Token) (rest : List Token) :
    window (read ++ [token]) rest = token :: rest := by
  rw [window_append_cons, window_singleton]

@[simp] theorem window_cons (first : Token) {read : List Token} (nonempty : read ≠ [])
    (rest : List Token) : window (first :: read) rest = window read rest := by
  cases read with
  | nil => exact (nonempty rfl).elim
  | cons token read => simp [window, List.getLast?_cons_cons]

@[simp] theorem window_append (earlier : List Token) {read : List Token} (nonempty : read ≠ [])
    (rest : List Token) : window (earlier ++ read) rest = window read rest := by
  cases read with
  | nil => exact (nonempty rfl).elim
  | cons token read => exact window_append_cons earlier token read rest

theorem exists_window_eq_cons {read : List Token} (nonempty : read ≠ []) (rest : List Token) :
    ∃ last, window read rest = last :: rest := by
  exact ⟨read.getLast nonempty, by
    simp only [window, List.getLast?_eq_some_getLast nonempty, Option.toList_some,
      List.singleton_append]⟩

namespace Parser

variable (p : Parser (List Token))

/-- The same parser, facing other tokens. -/
def facing (tokens : List Token) : Parser (List Token) :=
  { p with
    current := front tokens
    peek := front tokens.tail
    source := tokens.drop 2 }

/-- The same parser with more blocks open. -/
def opened (count : Nat) : Parser (List Token) := { p with openBlocks := p.openBlocks + count }

/-- The same parser inside one more expression. -/
def deeper : Parser (List Token) := { p with nesting := p.nesting + 1 }

@[simp] theorem current_facing (tokens : List Token) : (p.facing tokens).current = front tokens :=
  rfl

@[simp] theorem peek_facing (tokens : List Token) : (p.facing tokens).peek = front tokens.tail :=
  rfl

@[simp] theorem rules_facing (tokens : List Token) : (p.facing tokens).rules = p.rules := rfl

@[simp] theorem openBlocks_facing (tokens : List Token) :
    (p.facing tokens).openBlocks = p.openBlocks := rfl

@[simp] theorem diagnostics_facing (tokens : List Token) :
    (p.facing tokens).diagnostics = p.diagnostics := rfl

@[simp] theorem rules_deeper : p.deeper.rules = p.rules := rfl

@[simp] theorem limit_deeper : p.deeper.limit = p.limit := rfl

@[simp] theorem nesting_deeper : p.deeper.nesting = p.nesting + 1 := rfl

@[simp] theorem enterBlock_facing (tokens : List Token) :
    (p.facing tokens).enterBlock = p.enterBlock.facing tokens := rfl

theorem enterBlock_opened (count : Nat) : p.enterBlock.opened count = p.opened (count + 1) := by
  simp only [opened, enterBlock, Nat.add_assoc, Nat.add_comm 1]

@[simp] theorem opened_zero : p.opened 0 = p := rfl

@[simp] theorem advance_facing (tokens : List Token) :
    (p.facing tokens).advance = p.facing tokens.tail := by
  match tokens with
  | [] => rfl
  | [_] => rfl
  | [_, _] => rfl
  | _ :: _ :: _ :: _ => rfl

theorem advance_window {read : List Token} (nonempty : read ≠ []) (rest : List Token) :
    (p.facing (window read rest)).advance = p.facing rest := by
  obtain ⟨last, held⟩ := exists_window_eq_cons nonempty rest
  rw [held, advance_facing, List.tail_cons]

theorem peek_window {read : List Token} (nonempty : read ≠ []) (rest : List Token) :
    (p.facing (window read rest)).peek = front rest := by
  obtain ⟨last, held⟩ := exists_window_eq_cons nonempty rest
  rw [held, peek_facing, List.tail_cons]

theorem start_eq_facing (limit : Option Nat) (rules : Rules) (tokens : List Token) :
    start limit rules tokens = (start limit rules []).facing tokens := by
  match tokens with
  | [] => rfl
  | [_] => rfl
  | _ :: _ :: _ => rfl

end Parser

/-- Whether the token that is blamed is met as the lookahead, behind the last one read. -/
def Cause.atLookahead : Cause → Bool
  | .unexpected expected _ => expected ≠ .closeCurly
  | _ => false

/-- What a parser faces that has read some tokens and blames the next one. An unclosed block is
noticed at the token under examination, every other unexpected token at the lookahead. -/
def blamed (diagnostic : Diagnostic) (read rest : List Token) : List Token :=
  if diagnostic.cause.atLookahead then window read rest else rest

/-- An expression of this level can be read inside that many others. -/
def Room (limit : Option Nat) (nest level : Nat) : Prop := ∀ most ∈ limit, nest + level ≤ most

theorem room_of_le {most nest level : Nat} (le : nest + level ≤ most) :
    Room (some most) nest level := by
  rintro _ ⟨⟩
  exact le

theorem Room.mono {limit : Option Nat} {nest nest' level level' : Nat}
    (room : Room limit nest level)
    (le : nest' + level' ≤ nest + level) : Room limit nest' level' :=
  fun most limited => Nat.le_trans le (room most limited)

theorem Room.max {limit : Option Nat} {nest level level' : Nat} (room : Room limit nest level)
    (room' : Room limit nest level') : Room limit nest (max level level') := by
  intro most limited
  have := room most limited
  have := room' most limited
  omega

theorem Room.deeper {p : Parser (List Token)} {level : Nat}
    (room : Room p.limit p.nesting (level + 1)) : Room p.deeper.limit p.deeper.nesting level :=
  room.mono (by simp only [Parser.nesting_deeper]; omega)

theorem room_or_full (limit : Option Nat) (nest : Nat) :
    Room limit nest 1 ∨ ∃ most, limit = some most ∧ most ≤ nest := by
  cases limit with
  | none => exact .inl nofun
  | some most =>
    by_cases full : most ≤ nest
    · exact .inr ⟨most, rfl, full⟩
    · exact .inl fun _ same => by cases same; omega

namespace Diagnostic

@[simp] theorem token_noOperand (found : Token) : (noOperand found).token = found := by
  unfold noOperand
  split <;> rfl

theorem atLookahead_noOperand (found : Token) :
    (noOperand found).cause.atLookahead = false := by
  unfold noOperand
  split <;> rfl

theorem atLookahead_unexpected {expected : Kind} (inner : expected ≠ .closeCurly) (found : Token) :
    (unexpected expected found).cause.atLookahead = true := by
  simpa [unexpected, Cause.atLookahead] using inner

end Diagnostic

@[simp] theorem blamed_noOperand (found : Token) (read rest : List Token) :
    blamed (.noOperand found) read rest = rest := by
  simp [blamed, Diagnostic.atLookahead_noOperand]

theorem blamed_unexpected {expected : Kind} (inner : expected ≠ .closeCurly) (found : Token)
    (read rest : List Token) :
    blamed (.unexpected expected found) read rest = window read rest := by
  simp [blamed, Diagnostic.atLookahead_unexpected inner]

namespace Parse

variable {σ α β : Type}

theorem bind_accepted {first : Parse σ α} {next : α → Parse σ β} {p after : Parser σ} {value : α}
    (ran : first p = .accepted value after) : (first >>= next) p = next value after := by
  change Parse.bind first next p = _
  simp only [Parse.bind, ran]

theorem bind_rejected {first : Parse σ α} {next : α → Parse σ β} {p after : Parser σ}
    {diagnostic : Diagnostic} (ran : first p = .rejected diagnostic after) :
    (first >>= next) p = .rejected diagnostic after := by
  change Parse.bind first next p = _
  simp only [Parse.bind, ran]

@[simp] theorem current_bind (next : Token → Parse σ β) (p : Parser σ) :
    (current >>= next) p = next p.current p := rfl

@[simp] theorem peek_bind (next : Token → Parse σ β) (p : Parser σ) :
    (peek >>= next) p = next p.peek p := rfl

@[simp] theorem rules_bind (next : Rules → Parse σ β) (p : Parser σ) :
    (rules >>= next) p = next p.rules p := rfl

@[simp] theorem modify_bind (change : Parser σ → Parser σ) (next : Unit → Parse σ β)
    (p : Parser σ) : (modify change >>= next) p = next () (change p) := rfl

@[simp] theorem advance_bind [TokenStream σ] (next : Unit → Parse σ β) (p : Parser σ) :
    (advance >>= next) p = next () p.advance := rfl

@[simp] theorem reject_apply (diagnostic : Diagnostic) (p : Parser σ) :
    (reject diagnostic : Parse σ α) p = .rejected diagnostic p := rfl

/-- At the limit nothing more is read. -/
theorem nested_full {p : Parser σ} {most : Nat} (limited : p.limit = some most)
    (full : most ≤ p.nesting) (body : Parse σ α) :
    nested body p = .rejected ⟨.tooDeep most, p.current⟩ p := by
  refine bind_rejected ?_
  simp only [enterNesting, limited, if_pos full]

/-- Below the limit the body runs one level deeper. -/
theorem nested_room {p : Parser σ} (room : Room p.limit p.nesting 1) (body : Parse σ α) :
    nested body p = (body { p with nesting := p.nesting + 1 }).mapAfter Parser.exitNesting := by
  have entered : enterNesting p = .accepted () { p with nesting := p.nesting + 1 } := by
    unfold enterNesting
    split
    · next most limited =>
      have below := room most limited
      exact if_neg (by omega)
    · rfl
  exact bind_accepted entered

variable {p : Parser (List Token)} {expected : Kind} {token : Token} {read rest : List Token}

theorem expect_accepted (nonempty : read ≠ []) (kind : token.kind = expected) :
    expect expected (p.facing (window read (token :: rest))) =
      .accepted token (p.facing (token :: rest)) := by
  rw [expect, peek_bind, Parser.peek_window _ nonempty, front_cons, if_pos kind, advance_bind,
    Parser.advance_window _ nonempty]
  rfl

theorem expect_rejected (nonempty : read ≠ []) (other : (front rest).kind ≠ expected) :
    expect expected (p.facing (window read rest)) =
      .rejected (.unexpected expected (front rest)) (p.facing (window read rest)) := by
  rw [expect, peek_bind, Parser.peek_window _ nonempty, if_neg other, reject_apply]

end Parse

namespace Descent

variable {σ : Type} {p : Parser σ}

theorem integer_accepted {value : Int} (fits : Numeral.signed? p.current.literal = some value) :
    integer p = .accepted (.integer p.current value) p := by
  rw [integer, Parse.current_bind, fits]
  rfl

theorem integer_rejected (unfit : Numeral.signed? p.current.literal = none) :
    integer p = .rejected ⟨.badInteger p.current.literal, p.current⟩ p := by
  rw [integer, Parse.current_bind, unfit]
  rfl

variable [TokenStream σ] {d : Descent σ}

theorem exprStep_room (p : Parser σ) (room : Room p.limit p.nesting 1) (bound : Precedence) :
    d.exprStep bound p =
      ((d.operand >>= d.operators bound) { p with nesting := p.nesting + 1 }).mapAfter
        Parser.exitNesting :=
  Parse.nested_room room _

theorem exprStep_full (p : Parser σ) {most : Nat} (limited : p.limit = some most)
    (full : most ≤ p.nesting)
    (bound : Precedence) :
    d.exprStep bound p = .rejected ⟨.tooDeep most, p.current⟩ p :=
  Parse.nested_full limited full _

theorem operand_eq_operandBy {rule : OperandRule}
    (begins : p.rules.operand p.current.kind = some rule) : d.operand p = d.operandBy rule p := by
  rw [operand, Parse.current_bind, Parse.rules_bind, begins]

theorem operand_rejected (none : p.rules.operand p.current.kind = none) :
    d.operand p = .rejected (.noOperand p.current) p := by
  rw [operand, Parse.current_bind, Parse.rules_bind, none]
  rfl

theorem operatorsStep_taken {bound : Precedence} {left : Expr} {rule : OperatorRule}
    (taken : bound < p.rules.level p.peek.kind)
    (operates : p.rules.operator p.peek.kind = some rule) :
    d.operatorsStep bound left p =
      (d.operatorBy left (p.rules.level p.peek.kind) rule >>= d.operators bound) p.advance := by
  rw [operatorsStep, Parse.peek_bind, Parse.rules_bind, if_pos taken, operates]
  rfl

theorem operatorsStep_ended {bound : Precedence} {left : Expr}
    (weak : p.rules.level p.peek.kind ≤ bound) :
    d.operatorsStep bound left p = .accepted left p := by
  rw [operatorsStep, Parse.peek_bind, Parse.rules_bind, if_neg (Precedence.not_lt.mpr weak)]
  rfl

theorem statement_eq_statementBy {rule : StatementRule}
    (begins : p.rules.statement p.current.kind = some rule) :
    d.statement p = d.statementBy rule p := by
  rw [statement, Parse.current_bind, Parse.rules_bind, begins]

theorem statement_eq_expressionStatement (plain : p.rules.statement p.current.kind = none) :
    d.statement p = d.expressionStatement p := by
  rw [statement, Parse.current_bind, Parse.rules_bind, plain]

end Descent

end ScriptReader
