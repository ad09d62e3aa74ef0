import ScriptReader.Proofs.Writing

/-! # Refusals

A refusal is the counterpart of a writing: a list of tokens that begins a tree, together with the
diagnostic that the token behind it calls for. It is made of the writings that were complete, and of
the one place where the grammar wants something else. Beside each refusal stands the number of
blocks that it leaves open. The limit on nesting and the number of expressions around it are given:
a writing inside a refusal has room, and where there is none left the refusal says so.
-/

namespace ScriptReader

/-- Names with commas between them, up to a token that is no name. -/
inductive Name.RefusedList : Diagnostic → List Token → Prop
  | name {token : Token} (other : token.kind ≠ .identifier) :
      Name.RefusedList (.unexpected .identifier token) []
  | later {name comma : Token} {diagnostic : Diagnostic} {tokens : List Token}
      (named : name.kind = .identifier) (separated : comma.kind = .comma)
      (rest : Name.RefusedList diagnostic tokens) :
      Name.RefusedList diagnostic (name :: comma :: tokens)

/-- The names behind an opening parenthesis, up to where a name or the end is missing. -/
inductive Name.Unlisted : Diagnostic → List Token → Prop
  | name {diagnostic : Diagnostic} {tokens : List Token}
      (given : (front (tokens ++ [diagnostic.token])).kind ≠ .closeParen)
      (rest : Name.RefusedList diagnostic tokens) : Name.Unlisted diagnostic tokens
  | close {token : Token} {names : List Name} {tokens : List Token}
      (given : Name.WrittenList names tokens) (apart : token.kind ≠ .comma)
      (other : token.kind ≠ .closeParen) :
      Name.Unlisted (.unexpected .closeParen token) tokens

mutual

/-- An expression at a place that takes tighter operators than a bound. -/
inductive Expr.Refused (limit : Option Nat) :
    Nat → Precedence → Nat → Diagnostic → List Token → Prop
  | tooDeep {nest most : Nat} {bound : Precedence} {token : Token} (limited : limit = some most)
      (full : most ≤ nest) : Expr.Refused limit nest bound 0 ⟨.tooDeep most, token⟩ []
  | operand {nest count : Nat} {bound : Precedence} {diagnostic : Diagnostic} {tokens : List Token}
      (room : Room limit nest 1)
      (inner : Expr.RefusedOperand limit (nest + 1) count diagnostic tokens) :
      Expr.Refused limit nest bound count diagnostic tokens
  | right {operator : Token} {nest level count : Nat} {bound : Precedence} {edge : Edge}
      {left : Expr} {diagnostic : Diagnostic} {tokens others : List Token}
      (operates : Rules.standard.operator operator.kind = some .binary)
      (first : Expr.Written edge level left tokens) (room : Room limit nest level)
      (taken : bound < Rules.standard.level operator.kind)
      (loose : Rules.standard.level operator.kind ≤ edge.strength)
      (second : Expr.Refused limit (nest + 1) (Rules.standard.level operator.kind) count diagnostic
        others) :
      Expr.Refused limit nest bound count diagnostic (tokens ++ operator :: others)
  | arguments {opening : Token} {nest level count : Nat} {bound : Precedence} {edge : Edge}
      {callee : Expr} {diagnostic : Diagnostic} {tokens others : List Token}
      (opens : opening.kind = .openParen) (first : Expr.Written edge level callee tokens)
      (room : Room limit nest level) (taken : bound < .call) (tight : edge.strength = .call)
      (given : Expr.Unlisted limit (nest + 1) count diagnostic others) :
      Expr.Refused limit nest bound count diagnostic (tokens ++ opening :: others)

/-- An operand, inside the expression that it begins. -/
inductive Expr.RefusedOperand (limit : Option Nat) : Nat → Nat → Diagnostic → List Token → Prop
  | start {nest : Nat} {token : Token} (none : Rules.standard.operand token.kind = none) :
      Expr.RefusedOperand limit nest 0 (.noOperand token) []
  | integer {nest : Nat} {token : Token} (numeral : token.kind = .integer)
      (unfit : Numeral.signed? token.literal = none) :
      Expr.RefusedOperand limit nest 0 ⟨.badInteger token.literal, token⟩ []
  | unary {operator : Token} {nest count : Nat} {diagnostic : Diagnostic} {tokens : List Token}
      (operates : operator.kind = .not ∨ operator.kind = .minus)
      (inner : Expr.Refused limit nest .unary count diagnostic tokens) :
      Expr.RefusedOperand limit nest count diagnostic (operator :: tokens)
  | grouped {opening : Token} {nest count : Nat} {diagnostic : Diagnostic} {tokens : List Token}
      (opens : opening.kind = .openParen)
      (inner : Expr.Unclosed limit nest .closeParen count diagnostic tokens) :
      Expr.RefusedOperand limit nest count diagnostic (opening :: tokens)
  | condition {word token : Token} {nest : Nat} (chooses : word.kind = .ifWord)
      (other : token.kind ≠ .openParen) :
      Expr.RefusedOperand limit nest 0 (.unexpected .openParen token) [word]
  | tested {word opening : Token} {nest count : Nat} {diagnostic : Diagnostic} {tokens : List Token}
      (chooses : word.kind = .ifWord) (opens : opening.kind = .openParen)
      (inner : Expr.Unclosed limit nest .closeParen count diagnostic tokens) :
      Expr.RefusedOperand limit nest count diagnostic (word :: opening :: tokens)
  | chosen {word opening closing : Token} {nest level count : Nat} {edge : Edge} {condition : Expr}
      {diagnostic : Diagnostic} {tokens block : List Token} (chooses : word.kind = .ifWord)
      (opens : opening.kind = .openParen) (tested : Expr.Written edge level condition tokens)
      (room : Room limit nest level) (closes : closing.kind = .closeParen)
      (inner : Block.Refused limit nest count diagnostic block) :
      Expr.RefusedOperand limit nest count diagnostic
        (word :: opening :: tokens ++ closing :: block)
  | left {word opening closing otherwise : Token} {nest level deep count : Nat} {edge : Edge}
      {condition : Expr} {consequence : Block} {diagnostic : Diagnostic}
      {tokens block other : List Token} (chooses : word.kind = .ifWord)
      (opens : opening.kind = .openParen) (tested : Expr.Written edge level condition tokens)
      (room : Room limit nest level) (closes : closing.kind = .closeParen)
      (chosen : Block.Written deep consequence block) (space : Room limit nest deep)
      (turns : otherwise.kind = .elseWord)
      (inner : Block.Refused limit nest count diagnostic other) :
      Expr.RefusedOperand limit nest count diagnostic
        (word :: opening :: tokens ++ closing :: block ++ otherwise :: other)
  | function {word token : Token} {nest : Nat} (defines : word.kind = .fnWord)
      (other : token.kind ≠ .openParen) :
      Expr.RefusedOperand limit nest 0 (.unexpected .openParen token) [word]
  | parameters {word opening : Token} {nest : Nat} {diagnostic : Diagnostic} {tokens : List Token}
      (defines : word.kind = .fnWord) (opens : opening.kind = .openParen)
      (inner : Name.Unlisted diagnostic tokens) :
      Expr.RefusedOperand limit nest 0 diagnostic (word :: opening :: tokens)
  | does {word opening : Token} {nest count : Nat} {names : List Name} {diagnostic : Diagnostic}
      {tokens block : List Token} (defines : word.kind = .fnWord)
      (opens : opening.kind = .openParen) (parameters : Name.Listed names tokens)
      (inner : Block.Refused limit nest count diagnostic block) :
      Expr.RefusedOperand limit nest count diagnostic (word :: opening :: tokens ++ block)

/-- An expression that a token of a given kind has to close. -/
inductive Expr.Unclosed (limit : Option Nat) : Nat → Kind → Nat → Diagnostic → List Token → Prop
  | inner {nest count : Nat} {closer : Kind} {diagnostic : Diagnostic} {tokens : List Token}
      (inner : Expr.Refused limit nest .lowest count diagnostic tokens) :
      Expr.Unclosed limit nest closer count diagnostic tokens
  | close {token : Token} {nest level : Nat} {closer : Kind} {edge : Edge} {value : Expr}
      {tokens : List Token} (given : Expr.Written edge level value tokens)
      (room : Room limit nest level) (ends : edge.EndsBefore .lowest token.kind)
      (other : token.kind ≠ closer) :
      Expr.Unclosed limit nest closer 0 (.unexpected closer token) tokens

/-- Expressions with commas between them. -/
inductive Expr.RefusedList (limit : Option Nat) : Nat → Nat → Diagnostic → List Token → Prop
  | first {nest count : Nat} {diagnostic : Diagnostic} {tokens : List Token}
      (inner : Expr.Refused limit nest .lowest count diagnostic tokens) :
      Expr.RefusedList limit nest count diagnostic tokens
  | later {comma : Token} {nest level count : Nat} {edge : Edge} {value : Expr}
      {diagnostic : Diagnostic} {tokens others : List Token}
      (first : Expr.Written edge level value tokens) (room : Room limit nest level)
      (separated : comma.kind = .comma)
      (rest : Expr.RefusedList limit nest count diagnostic others) :
      Expr.RefusedList limit nest count diagnostic (tokens ++ comma :: others)

/-- The arguments behind an opening parenthesis. -/
inductive Expr.Unlisted (limit : Option Nat) : Nat → Nat → Diagnostic → List Token → Prop
  | argument {nest count : Nat} {diagnostic : Diagnostic} {tokens : List Token}
      (given : (front (tokens ++ [diagnostic.token])).kind ≠ .closeParen)
      (rest : Expr.RefusedList limit nest count diagnostic tokens) :
      Expr.Unlisted limit nest count diagnostic tokens
  | close {token : Token} {nest level : Nat} {edge : Edge} {values : List Expr}
      {tokens : List Token} (given : Expr.WrittenList edge level values tokens)
      (room : Room limit nest level) (ends : edge.EndsBefore .lowest token.kind)
      (apart : token.kind ≠ .comma) (other : token.kind ≠ .closeParen) :
      Expr.Unlisted limit nest 0 (.unexpected .closeParen token) tokens

inductive Stmt.Refused (limit : Option Nat) : Nat → Nat → Diagnostic → List Token → Prop
  | name {word token : Token} {nest : Nat} (declares : word.kind = .varWord)
      (other : token.kind ≠ .identifier) :
      Stmt.Refused limit nest 0 (.unexpected .identifier token) [word]
  | assign {word name token : Token} {nest : Nat} (declares : word.kind = .varWord)
      (named : name.kind = .identifier) (other : token.kind ≠ .assign) :
      Stmt.Refused limit nest 0 (.unexpected .assign token) [word, name]
  | declaration {word name assign : Token} {nest count : Nat} {diagnostic : Diagnostic}
      {tokens : List Token} (declares : word.kind = .varWord) (named : name.kind = .identifier)
      (assigns : assign.kind = .assign)
      (inner : Expr.Unclosed limit nest .semicolon count diagnostic tokens) :
      Stmt.Refused limit nest count diagnostic (word :: name :: assign :: tokens)
  | ret {word : Token} {nest count : Nat} {diagnostic : Diagnostic} {tokens : List Token}
      (returns : word.kind = .returnWord)
      (inner : Expr.Unclosed limit nest .semicolon count diagnostic tokens) :
      Stmt.Refused limit nest count diagnostic (word :: tokens)
  | expression {nest count : Nat} {diagnostic : Diagnostic} {tokens : List Token}
      (plain : Rules.standard.statement (front (tokens ++ [diagnostic.token])).kind = none)
      (inner : Expr.Refused limit nest .lowest count diagnostic tokens) :
      Stmt.Refused limit nest count diagnostic tokens
  | semicolon {token : Token} {nest level : Nat} {edge : Edge} {value : Expr} {tokens : List Token}
      (given : Expr.Written edge level value tokens) (room : Room limit nest level)
      (ends : edge.EndsBefore .lowest token.kind) (open_ : value.endsWithBlock = false)
      (other : token.kind ≠ .semicolon) :
      Stmt.Refused limit nest 0 (.unexpected .semicolon token) tokens

/-- Statements that a token of a given kind would end. -/
inductive Stmt.RefusedList (limit : Option Nat) :
    Kind → Nat → Nat → Diagnostic → List Token → Prop
  | first {closer : Kind} {nest count : Nat} {diagnostic : Diagnostic} {tokens : List Token}
      (inside : (front (tokens ++ [diagnostic.token])).kind ≠ closer)
      (present : (front (tokens ++ [diagnostic.token])).kind ≠ .endOfInput)
      (inner : Stmt.Refused limit nest count diagnostic tokens) :
      Stmt.RefusedList limit closer nest count diagnostic tokens
  | later {closer : Kind} {ending : Option Edge} {nest level count : Nat} {statement : Stmt}
      {diagnostic : Diagnostic} {tokens others : List Token}
      (first : Stmt.Written ending level statement tokens) (room : Room limit nest level)
      (apart : Apart ending (front (others ++ [diagnostic.token])).kind)
      (rest : Stmt.RefusedList limit closer nest count diagnostic others) :
      Stmt.RefusedList limit closer nest count diagnostic (tokens ++ others)

inductive Block.Refused (limit : Option Nat) : Nat → Nat → Diagnostic → List Token → Prop
  | brace {token : Token} {nest : Nat} (other : token.kind ≠ .openCurly) :
      Block.Refused limit nest 0 (.unexpected .openCurly token) []
  | statement {opening : Token} {nest count : Nat} {diagnostic : Diagnostic} {tokens : List Token}
      (opens : opening.kind = .openCurly)
      (body : Stmt.RefusedList limit .closeCurly nest count diagnostic tokens) :
      Block.Refused limit nest (count + 1) diagnostic (opening :: tokens)
  | close {opening token : Token} {nest level : Nat} {body : List Stmt} {tokens : List Token}
      (opens : opening.kind = .openCurly) (given : Stmt.WrittenList level body tokens)
      (room : Room limit nest level) (ended : token.kind = .endOfInput) :
      Block.Refused limit nest 1 (.unexpected .closeCurly token) (opening :: tokens)

end

/-- A statement that is blamed at the lookahead has taken a token. -/
theorem Stmt.Refused.ne_nil {limit : Option Nat} {nest count : Nat} {diagnostic : Diagnostic}
    {tokens : List Token} (refused : Stmt.Refused limit nest count diagnostic tokens)
    (late : diagnostic.cause.atLookahead = true) : tokens ≠ [] := by
  cases refused with
  | semicolon given => exact given.ne_nil
  | expression _ inner =>
    cases inner with
    | tooDeep => cases late
    | right => simp
    | arguments => simp
    | operand _ inner =>
      cases inner with
      | start => rw [Diagnostic.atLookahead_noOperand] at late; cases late
      | integer => cases late
      | _ => simp
  | _ => simp

theorem Stmt.RefusedList.ne_nil {limit : Option Nat} {closer : Kind} {nest count : Nat}
    {diagnostic : Diagnostic} {tokens : List Token}
    (refused : Stmt.RefusedList limit closer nest count diagnostic tokens)
    (late : diagnostic.cause.atLookahead = true) : tokens ≠ [] := by
  cases refused with
  | first _ _ inner => exact inner.ne_nil late
  | later first => simp [first.ne_nil]

end ScriptReader
