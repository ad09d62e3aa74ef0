import ScriptReader.Proofs.Window

/-! # Writings

A writing of a tree is a list of tokens that spells it: the nodes in grammar order, every token that
a node stores at its own place, and any number of parentheses around any expression. Parentheses are
left out only where precedence allows it. Beside each writing stands its level, the number of
expressions that are being read at once at its deepest point, and its edge, which says what the
writing does with the token behind it.
-/

namespace ScriptReader

/-- How a written expression ends. -/
structure Edge where
  /-- How tightly the outermost operator outside all brackets holds its operands. -/
  strength : Precedence
  /-- Whether an `else` right behind would be drawn in. -/
  dangling : Bool
deriving DecidableEq, Repr

namespace Edge

/-- The edge of a single token and of everything that ends in a bracket. -/
def closed : Edge := ⟨.call, false⟩

/-- The expression may stand unparenthesised where only tighter operators than `bound` are taken.
An operator in front of its operand is never taken away from it. -/
def Fits (edge : Edge) (bound : Precedence) : Prop :=
  bound < edge.strength ∨ .unary ≤ edge.strength

/-- A token of this kind right behind the expression is not drawn in, at a place where tighter
operators than `bound` are taken. -/
def EndsBefore (edge : Edge) (bound : Precedence) (next : Kind) : Prop :=
  Rules.standard.level next ≤ bound ∧ (edge.dangling = true → next ≠ .elseWord)

end Edge

/-- A statement with this ending is complete before a token of this kind. A statement without its
semicolon ends in the edge of its expression. -/
def Apart (ending : Option Edge) (next : Kind) : Prop :=
  ∀ edge ∈ ending, edge.EndsBefore .lowest next ∧ next ≠ .semicolon

/-- Names with commas between them. -/
inductive Name.WrittenList : List Name → List Token → Prop
  | single {name : Token} (named : name.kind = .identifier) :
      Name.WrittenList [.ofToken name] [name]
  | cons {name comma : Token} {names : List Name} {tokens : List Token}
      (named : name.kind = .identifier) (separated : comma.kind = .comma)
      (rest : Name.WrittenList names tokens) :
      Name.WrittenList (.ofToken name :: names) (name :: comma :: tokens)

/-- Any number of names, up to and with a closing parenthesis. -/
inductive Name.Listed : List Name → List Token → Prop
  | none {closing : Token} (closes : closing.kind = .closeParen) : Name.Listed [] [closing]
  | some {closing : Token} {names : List Name} {tokens : List Token}
      (given : Name.WrittenList names tokens) (closes : closing.kind = .closeParen) :
      Name.Listed names (tokens ++ [closing])

mutual

inductive Expr.Written : Edge → Nat → Expr → List Token → Prop
  | identifier {name : Token} (named : name.kind = .identifier) :
      Expr.Written .closed 1 (.identifier (.ofToken name)) [name]
  | integer {token : Token} {value : Int} (numeral : token.kind = .integer)
      (fits : Numeral.signed? token.literal = some value) :
      Expr.Written .closed 1 (.integer token value) [token]
  | boolean {word : Token} (truth : word.kind = .trueWord ∨ word.kind = .falseWord) :
      Expr.Written .closed 1 (.boolean word (word.kind = .trueWord)) [word]
  | grouped {opening closing : Token} {edge : Edge} {level : Nat} {value : Expr}
      {tokens : List Token} (opens : opening.kind = .openParen)
      (inner : Expr.Written edge level value tokens) (closes : closing.kind = .closeParen) :
      Expr.Written .closed (level + 1) value (opening :: tokens ++ [closing])
  | unary {operator : Token} {edge : Edge} {level : Nat} {operand : Expr} {tokens : List Token}
      (operates : operator.kind = .not ∨ operator.kind = .minus)
      (inner : Expr.Written edge level operand tokens) (tight : .unary ≤ edge.strength) :
      Expr.Written ⟨.unary, edge.dangling⟩ (level + 1) (.unary operator operator.literal operand)
        (operator :: tokens)
  | binary {operator : Token} {before after : Edge} {level deep : Nat} {left right : Expr}
      {tokens others : List Token} (operates : Rules.standard.operator operator.kind = some .binary)
      (first : Expr.Written before level left tokens)
      (loose : Rules.standard.level operator.kind ≤ before.strength)
      (second : Expr.Written after deep right others)
      (tight : Rules.standard.level operator.kind < after.strength) :
      Expr.Written ⟨Rules.standard.level operator.kind, after.dangling⟩ (max level (deep + 1))
        (.binary operator operator.literal left right) (tokens ++ operator :: others)
  | call {opening : Token} {edge : Edge} {level deep : Nat} {callee : Expr} {arguments : List Expr}
      {tokens others : List Token} (opens : opening.kind = .openParen)
      (first : Expr.Written edge level callee tokens) (tight : edge.strength = .call)
      (given : Expr.Listed deep arguments others) :
      Expr.Written .closed (max level (deep + 1)) (.call opening callee arguments)
        (tokens ++ opening :: others)
  | conditional {word opening closing : Token} {edge : Edge} {level deep : Nat} {condition : Expr}
      {consequence : Block} {tokens block : List Token} (chooses : word.kind = .ifWord)
      (opens : opening.kind = .openParen) (tested : Expr.Written edge level condition tokens)
      (closes : closing.kind = .closeParen) (chosen : Block.Written deep consequence block) :
      Expr.Written ⟨.call, true⟩ (max level deep + 1) (.conditional word condition consequence none)
        (word :: opening :: tokens ++ closing :: block)
  | choice {word opening closing otherwise : Token} {edge : Edge} {level deep deeper : Nat}
      {condition : Expr} {consequence alternative : Block} {tokens block other : List Token}
      (chooses : word.kind = .ifWord) (opens : opening.kind = .openParen)
      (tested : Expr.Written edge level condition tokens) (closes : closing.kind = .closeParen)
      (chosen : Block.Written deep consequence block) (turns : otherwise.kind = .elseWord)
      (left : Block.Written deeper alternative other) :
      Expr.Written .closed (max level (max deep deeper) + 1)
        (.conditional word condition consequence (some alternative))
        (word :: opening :: tokens ++ closing :: block ++ otherwise :: other)
  | function {word opening : Token} {deep : Nat} {names : List Name} {body : Block}
      {tokens block : List Token} (defines : word.kind = .fnWord)
      (opens : opening.kind = .openParen) (parameters : Name.Listed names tokens)
      (does : Block.Written deep body block) :
      Expr.Written .closed (deep + 1) (.function word names body)
        (word :: opening :: tokens ++ block)

/-- Expressions with commas between them; the edge is that of the last one. -/
inductive Expr.WrittenList : Edge → Nat → List Expr → List Token → Prop
  | single {edge : Edge} {level : Nat} {value : Expr} {tokens : List Token}
      (only : Expr.Written edge level value tokens) : Expr.WrittenList edge level [value] tokens
  | cons {comma : Token} {edge last : Edge} {level deep : Nat} {value : Expr} {values : List Expr}
      {tokens others : List Token} (first : Expr.Written edge level value tokens)
      (separated : comma.kind = .comma) (rest : Expr.WrittenList last deep values others) :
      Expr.WrittenList last (max level deep) (value :: values) (tokens ++ comma :: others)

/-- Any number of expressions, up to and with a closing parenthesis. -/
inductive Expr.Listed : Nat → List Expr → List Token → Prop
  | none {closing : Token} (closes : closing.kind = .closeParen) : Expr.Listed 0 [] [closing]
  | some {closing : Token} {edge : Edge} {level : Nat} {values : List Expr} {tokens : List Token}
      (given : Expr.WrittenList edge level values tokens) (closes : closing.kind = .closeParen) :
      Expr.Listed level values (tokens ++ [closing])

/-- A statement that ends in a semicolon has no edge of its own. -/
inductive Stmt.Written : Option Edge → Nat → Stmt → List Token → Prop
  | declaration {word name assign semicolon : Token} {edge : Edge} {level : Nat} {value : Expr}
      {tokens : List Token} (declares : word.kind = .varWord) (named : name.kind = .identifier)
      (assigns : assign.kind = .assign) (given : Expr.Written edge level value tokens)
      (ends : semicolon.kind = .semicolon) :
      Stmt.Written none level (.declaration word (.ofToken name) value)
        (word :: name :: assign :: tokens ++ [semicolon])
  | ret {word semicolon : Token} {edge : Edge} {level : Nat} {value : Expr} {tokens : List Token}
      (returns : word.kind = .returnWord) (given : Expr.Written edge level value tokens)
      (ends : semicolon.kind = .semicolon) :
      Stmt.Written none level (.ret word value) (word :: tokens ++ [semicolon])
  | expression {first semicolon : Token} {edge : Edge} {level : Nat} {value : Expr}
      {tokens : List Token} (given : Expr.Written edge level value (first :: tokens))
      (ends : semicolon.kind = .semicolon) :
      Stmt.Written none level (.expression first value) (first :: tokens ++ [semicolon])
  | bare {first : Token} {edge : Edge} {level : Nat} {value : Expr} {tokens : List Token}
      (given : Expr.Written edge level value (first :: tokens))
      (block : value.endsWithBlock = true) :
      Stmt.Written (some edge) level (.expression first value) (first :: tokens)

/-- Statements one behind the other, each complete before the next one begins. -/
inductive Stmt.WrittenList : Nat → List Stmt → List Token → Prop
  | nil : Stmt.WrittenList 0 [] []
  | cons {ending : Option Edge} {level deep : Nat} {statement : Stmt} {statements : List Stmt}
      {tokens others : List Token} (first : Stmt.Written ending level statement tokens)
      (apart : ∀ next ∈ others.head?, Apart ending next.kind)
      (rest : Stmt.WrittenList deep statements others) :
      Stmt.WrittenList (max level deep) (statement :: statements) (tokens ++ others)

inductive Block.Written : Nat → Block → List Token → Prop
  | mk {opening closing : Token} {level : Nat} {body : List Stmt} {tokens : List Token}
      (opens : opening.kind = .openCurly) (statements : Stmt.WrittenList level body tokens)
      (closes : closing.kind = .closeCurly) :
      Block.Written level (.mk opening body) (opening :: tokens ++ [closing])

end

theorem Precedence.le_call (level : Precedence) : level ≤ .call := by
  cases level <;> decide

theorem Precedence.eq_call {level : Precedence} (tight : .call ≤ level) : level = .call := by
  cases level <;> first | rfl | exact absurd tight (by decide)

/-- The tokens that begin an operand by each rule. -/
theorem Rules.operand_eq_some {kind : Kind} {rule : OperandRule}
    (begins : standard.operand kind = some rule) :
    match rule with
    | .identifier => kind = .identifier
    | .integer => kind = .integer
    | .boolean => kind = .trueWord ∨ kind = .falseWord
    | .unary => kind = .not ∨ kind = .minus
    | .grouping => kind = .openParen
    | .conditional => kind = .ifWord
    | .function => kind = .fnWord := by
  cases kind <;> cases begins <;> simp

theorem Rules.operand_unary {kind : Kind} (operates : kind = .not ∨ kind = .minus) :
    standard.operand kind = some .unary := by
  rcases operates with rfl | rfl <;> rfl

theorem Rules.statement_eq_some {kind : Kind} {rule : StatementRule}
    (begins : standard.statement kind = some rule) :
    rule = .declaration ∧ kind = .varWord ∨ rule = .ret ∧ kind = .returnWord := by
  cases kind <;> cases begins <;> simp

/-- A token that begins an operand begins no statement of its own. -/
theorem Rules.statement_eq_none {kind : Kind} (begins : (standard.operand kind).isSome) :
    standard.statement kind = none := by
  cases kind <;> first | rfl | cases begins

theorem Rules.ne_of_operand {kind other : Kind} (begins : (standard.operand kind).isSome)
    (none : standard.operand other = none) : kind ≠ other := by
  rintro rfl
  rw [none] at begins
  cases begins

/-- Every operator binds tighter than the loosest place and looser than the operators in front. -/
theorem Rules.level_binary {kind : Kind} (operates : standard.operator kind = some .binary) :
    .lowest < standard.level kind ∧ standard.level kind < .unary := by
  cases kind <;> first | exact absurd operates (by decide) | decide

theorem Rules.level_eq_lowest_or {kind : Kind} (tight : .lowest < standard.level kind) :
    standard.operator kind = some .binary ∨ kind = .openParen := by
  cases kind <;> revert tight <;> decide

namespace Edge

variable {edge : Edge} {bound : Precedence} {next : Kind}

theorem closed_fits (bound : Precedence) : closed.Fits bound := .inr (by decide)

theorem fits_unary_iff : edge.Fits .unary ↔ .unary ≤ edge.strength := by
  simp only [Fits, Precedence.lt_iff, Precedence.le_iff]
  omega

/-- Where fewer operators are taken, an expression that fits holds its operands more tightly. -/
theorem Fits.le_strength (fits : edge.Fits bound) (weak : bound < .call) :
    bound ≤ edge.strength := by
  simp only [Fits, Precedence.lt_iff, Precedence.le_iff, Precedence.rank] at fits weak ⊢
  omega

/-- No operator and no branch begins with a token of this kind, so it ends every expression. -/
theorem endsBefore_lowest (plain : Rules.standard.level next = .lowest) (apart : next ≠ .elseWord)
    (edge : Edge) : edge.EndsBefore .lowest next :=
  ⟨Nat.le_of_eq (congrArg Precedence.rank plain), fun _ => apart⟩

theorem closed_endsBefore (next : Kind) : closed.EndsBefore closed.strength next :=
  ⟨Precedence.le_call _, nofun⟩

/-- Behind a binary operator, what fits holds its operands more tightly. -/
theorem Fits.lt {kind : Kind} (fits : edge.Fits (Rules.standard.level kind))
    (operates : Rules.standard.operator kind = some .binary) :
    Rules.standard.level kind < edge.strength :=
  fits.elim id fun tight => Nat.lt_of_lt_of_le (Rules.level_binary operates).2 tight

theorem EndsBefore.mono {higher : Precedence} (ends : edge.EndsBefore bound next)
    (le : bound ≤ higher) : edge.EndsBefore higher next :=
  ⟨Nat.le_trans ends.1 le, ends.2⟩

end Edge

/-- Before the first of several tokens is before all of them. -/
theorem apart_head {ending : Option Edge} {tokens : List Token} {last : Token}
    (apart : Apart ending (front (tokens ++ [last])).kind) :
    ∀ next ∈ tokens.head?, Apart ending next.kind := by
  cases tokens with
  | nil => nofun
  | cons token rest =>
    intro next found
    obtain rfl : token = next := by simpa using found
    exact apart

theorem apart_front {ending : Option Edge} {tokens rest : List Token}
    (apart : ∀ next ∈ tokens.head?, Apart ending next.kind)
    (ended : Apart ending (front rest).kind) : Apart ending (front (tokens ++ rest)).kind := by
  cases tokens with
  | nil => exact ended
  | cons token tokens => exact apart token rfl

/-- These end every statement before them, or begin another one. -/
theorem apart_of_kind {next : Kind}
    (ends : next = .closeCurly ∨ next = .endOfInput ∨ next = .identifier)
    (ending : Option Edge) : Apart ending next := by
  rintro edge -
  rcases ends with rfl | rfl | rfl
  · exact ⟨edge.endsBefore_lowest rfl (by decide), by decide⟩
  · exact ⟨edge.endsBefore_lowest rfl (by decide), by decide⟩
  · exact ⟨edge.endsBefore_lowest rfl (by decide), by decide⟩

theorem apart_none (next : Kind) : Apart none next := by simp [Apart]

theorem Name.WrittenList.ne_nil {names : List Name} {tokens : List Token}
    (written : Name.WrittenList names tokens) : tokens ≠ [] := by
  cases written <;> simp

theorem Name.WrittenList.front_kind {names : List Name} {tokens : List Token}
    (written : Name.WrittenList names tokens) : (front tokens).kind = .identifier := by
  cases written with
  | single named => exact named
  | cons named => exact named

theorem Name.Listed.ne_nil {names : List Name} {tokens : List Token}
    (listed : Name.Listed names tokens) : tokens ≠ [] := by
  cases listed <;> simp

section Shape

variable {edge : Edge} {ending : Option Edge} {level : Nat} {tokens : List Token}

theorem Expr.Written.ne_nil {value : Expr} (written : Expr.Written edge level value tokens) :
    tokens ≠ [] := by
  cases written <;> simp

theorem Expr.Written.level_pos {value : Expr} (written : Expr.Written edge level value tokens) :
    0 < level := by
  cases written <;> omega

theorem Expr.Written.fits_lowest {value : Expr} (written : Expr.Written edge level value tokens) :
    edge.Fits .lowest := by
  cases written with
  | binary operates => exact .inl (Rules.level_binary operates).1
  | unary => exact .inr (Nat.le_refl 5)
  | _ => exact .inr (by decide)

theorem Expr.WrittenList.ne_nil {values : List Expr}
    (written : Expr.WrittenList edge level values tokens) : tokens ≠ [] := by
  cases written with
  | single only => exact only.ne_nil
  | cons first => simp

theorem Expr.WrittenList.values_ne_nil {values : List Expr}
    (written : Expr.WrittenList edge level values tokens) : values ≠ [] := by
  cases written <;> simp

theorem Expr.Listed.ne_nil {values : List Expr} (written : Expr.Listed level values tokens) :
    tokens ≠ [] := by
  cases written <;> simp

theorem Block.Written.ne_nil {block : Block} (written : Block.Written level block tokens) :
    tokens ≠ [] := by
  cases written
  simp

theorem Stmt.Written.ne_nil {statement : Stmt}
    (written : Stmt.Written ending level statement tokens) :
    tokens ≠ [] := by
  cases written <;> simp

end Shape

/-- A written expression begins with a token that begins an operand. -/
theorem Expr.Written.operand_front : ∀ {edge : Edge} {level : Nat} {value : Expr}
    {tokens : List Token}, Expr.Written edge level value tokens →
      (Rules.standard.operand (front tokens).kind).isSome
  | _, _, _, _, .identifier named => by simp [named, Rules.standard]
  | _, _, _, _, .integer numeral _ => by simp [numeral, Rules.standard]
  | _, _, _, _, .boolean truth => by
    rcases truth with truth | truth <;> simp [truth, Rules.standard]
  | _, _, _, _, .grouped opens _ _ => by simp [opens, Rules.standard]
  | _, _, _, _, .unary operates _ _ => by simp [Rules.operand_unary operates]
  | _, _, _, _, .binary _ first _ _ _ => by
    rw [front_append_of_ne_nil first.ne_nil]
    exact first.operand_front
  | _, _, _, _, .call _ first _ _ => by
    rw [front_append_of_ne_nil first.ne_nil]
    exact first.operand_front
  | _, _, _, _, .conditional chooses _ _ _ _ => by simp [chooses, Rules.standard]
  | _, _, _, _, .choice chooses _ _ _ _ _ _ => by simp [chooses, Rules.standard]
  | _, _, _, _, .function defines _ _ _ => by simp [defines, Rules.standard]

theorem Expr.Written.front_ne {edge : Edge} {level : Nat} {value : Expr} {tokens : List Token}
    (written : Expr.Written edge level value tokens) {kind : Kind}
    (none : Rules.standard.operand kind = none) : (front tokens).kind ≠ kind :=
  Rules.ne_of_operand written.operand_front none

theorem Expr.WrittenList.front_ne {edge : Edge} {level : Nat} {values : List Expr}
    {tokens : List Token} (written : Expr.WrittenList edge level values tokens) {kind : Kind}
    (none : Rules.standard.operand kind = none) : (front tokens).kind ≠ kind := by
  cases written with
  | single only => exact only.front_ne none
  | cons first =>
    rw [front_append_of_ne_nil first.ne_nil]
    exact first.front_ne none

/-- A written statement begins neither with a closing brace nor with the end of input. -/
theorem Stmt.Written.front_kind {ending : Option Edge} {level : Nat} {statement : Stmt}
    {tokens : List Token} (written : Stmt.Written ending level statement tokens) :
    (front tokens).kind ≠ .closeCurly ∧ (front tokens).kind ≠ .endOfInput := by
  cases written with
  | declaration declares => simp [declares]
  | ret returns => simp [returns]
  | expression given => exact ⟨given.front_ne rfl, given.front_ne rfl⟩
  | bare given => exact ⟨given.front_ne rfl, given.front_ne rfl⟩

end ScriptReader
