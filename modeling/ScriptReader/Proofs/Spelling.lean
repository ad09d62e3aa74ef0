import ScriptReader.Proofs.Run

/-! # The spelling of a tree

The spelling of a tree has a semicolon behind every statement and parentheses only where precedence
requires them. It is a writing of the tree as soon as the tree agrees with the tokens that it
stores, so parsing takes it back to the tree, unless it nests too deep.
-/

namespace ScriptReader

namespace Token

def assign : Token := ⟨.assign, "="⟩

def comma : Token := ⟨.comma, ","⟩

def semicolon : Token := ⟨.semicolon, ";"⟩

def openParen : Token := ⟨.openParen, "("⟩

def closeParen : Token := ⟨.closeParen, ")"⟩

def openCurly : Token := ⟨.openCurly, "\x7b"⟩

def closeCurly : Token := ⟨.closeCurly, "\x7d"⟩

def plus : Token := ⟨.plus, "+"⟩

def star : Token := ⟨.star, "*"⟩

def varWord : Token := ⟨.varWord, "var"⟩

def fnWord : Token := ⟨.fnWord, "fn"⟩

def elseWord : Token := ⟨.elseWord, "else"⟩

def identifier (name : String) : Token := ⟨.identifier, name⟩

end Token

/-- How tightly the outermost operator of an expression holds its operands. -/
def Expr.strength : Expr → Precedence
  | .unary .. => .unary
  | .binary token .. => Rules.standard.level token.kind
  | _ => .call

/-- The tokens, in parentheses where they are needed. -/
def enclosed (needed : Prop) [Decidable needed] (tokens : List Token) : List Token :=
  if needed then .openParen :: tokens ++ [.closeParen] else tokens

/-- Parentheses count as one more level. -/
def enclosedLevel (needed : Prop) [Decidable needed] (level : Nat) : Nat :=
  if needed then level + 1 else level

mutual

def Expr.spelling : Expr → List Token
  | .identifier name => [name.token]
  | .integer token _ => [token]
  | .boolean token _ => [token]
  | .unary token _ operand => token :: enclosed (operand.strength < .unary) operand.spelling
  | .binary token _ left right =>
    enclosed (left.strength < Rules.standard.level token.kind) left.spelling ++
      token :: enclosed (right.strength ≤ Rules.standard.level token.kind) right.spelling
  | .conditional token condition consequence alternative =>
    token :: .openParen :: condition.spelling ++
      .closeParen :: (consequence.spelling ++ Block.alternativeSpelling alternative)
  | .function token parameters body =>
    token :: .openParen :: ([.comma].intercalate (parameters.map fun name => [name.token]) ++
      .closeParen :: body.spelling)
  | .call token callee arguments =>
    enclosed (callee.strength < .call) callee.spelling ++
      token :: ([.comma].intercalate (Expr.spellings arguments) ++ [.closeParen])

def Expr.spellings : List Expr → List (List Token)
  | [] => []
  | first :: rest => first.spelling :: Expr.spellings rest

def Stmt.spelling : Stmt → List Token
  | .declaration token name value =>
    token :: name.token :: .assign :: value.spelling ++ [.semicolon]
  | .ret token value => token :: value.spelling ++ [.semicolon]
  | .expression _ value => value.spelling ++ [.semicolon]

/-- The spellings of statements, one behind the other. -/
def Stmt.listSpelling : List Stmt → List Token
  | [] => []
  | first :: rest => first.spelling ++ Stmt.listSpelling rest

def Block.spelling : Block → List Token
  | .mk token body => token :: Stmt.listSpelling body ++ [.closeCurly]

def Block.alternativeSpelling : Option Block → List Token
  | none => []
  | some block => .elseWord :: block.spelling

end

mutual

/-- The number of expressions that are read at once at the deepest point of the spelling. -/
def Expr.level : Expr → Nat
  | .identifier _ => 1
  | .integer .. => 1
  | .boolean .. => 1
  | .unary _ _ operand => enclosedLevel (operand.strength < .unary) operand.level + 1
  | .binary token _ left right =>
    max (enclosedLevel (left.strength < Rules.standard.level token.kind) left.level)
      (enclosedLevel (right.strength ≤ Rules.standard.level token.kind) right.level + 1)
  | .conditional _ condition consequence alternative =>
    max condition.level (max consequence.level (Block.alternativeLevel alternative)) + 1
  | .function _ _ body => body.level + 1
  | .call _ callee arguments =>
    max (enclosedLevel (callee.strength < .call) callee.level) (Expr.listLevel arguments + 1)

def Expr.listLevel : List Expr → Nat
  | [] => 0
  | first :: rest => max first.level (Expr.listLevel rest)

def Stmt.level : Stmt → Nat
  | .declaration _ _ value => value.level
  | .ret _ value => value.level
  | .expression _ value => value.level

def Stmt.listLevel : List Stmt → Nat
  | [] => 0
  | first :: rest => max first.level (Stmt.listLevel rest)

def Block.level : Block → Nat
  | .mk _ body => Stmt.listLevel body

def Block.alternativeLevel : Option Block → Nat
  | none => 0
  | some block => block.level

end

/-- The name is that of its token, which is an identifier. -/
def Name.WellFormed (name : Name) : Prop :=
  name.token.kind = .identifier ∧ name.text = name.token.literal

mutual

/-- Every node has a token of a kind that the grammar wants there, and its name, value or operator
is that of its token. -/
def Expr.WellFormed : Expr → Prop
  | .identifier name => name.WellFormed
  | .integer token value => token.kind = .integer ∧ Numeral.signed? token.literal = some value
  | .boolean token value =>
    (token.kind = .trueWord ∧ value = true) ∨ (token.kind = .falseWord ∧ value = false)
  | .unary token operator operand =>
    (token.kind = .not ∨ token.kind = .minus) ∧ operator = token.literal ∧ operand.WellFormed
  | .binary token operator left right =>
    Rules.standard.operator token.kind = some .binary ∧ operator = token.literal ∧
      left.WellFormed ∧ right.WellFormed
  | .conditional token condition consequence alternative =>
    token.kind = .ifWord ∧ condition.WellFormed ∧ consequence.WellFormed ∧
      Block.AlternativeWellFormed alternative
  | .function token parameters body =>
    token.kind = .fnWord ∧ (∀ name ∈ parameters, name.WellFormed) ∧ body.WellFormed
  | .call token callee arguments =>
    token.kind = .openParen ∧ callee.WellFormed ∧ Expr.ListWellFormed arguments

def Expr.ListWellFormed : List Expr → Prop
  | [] => True
  | first :: rest => first.WellFormed ∧ Expr.ListWellFormed rest

/-- The token of an expression statement is the first one of its spelling. -/
def Stmt.WellFormed : Stmt → Prop
  | .declaration token name value => token.kind = .varWord ∧ name.WellFormed ∧ value.WellFormed
  | .ret token value => token.kind = .returnWord ∧ value.WellFormed
  | .expression token value => token = front value.spelling ∧ value.WellFormed

def Stmt.ListWellFormed : List Stmt → Prop
  | [] => True
  | first :: rest => first.WellFormed ∧ Stmt.ListWellFormed rest

def Block.WellFormed : Block → Prop
  | .mk token body => token.kind = .openCurly ∧ Stmt.ListWellFormed body

def Block.AlternativeWellFormed : Option Block → Prop
  | none => True
  | some block => block.WellFormed

end

/-- With parentheses where it is too weak, an expression holds its operands tightly enough. -/
theorem Expr.Written.enclosed_lt {edge : Edge} {level : Nat} {value : Expr} {tokens : List Token}
    {bound : Precedence} (written : Expr.Written edge level value tokens)
    (strength : edge.strength = value.strength) :
    ∃ outer, bound ≤ outer.strength ∧
      Expr.Written outer (enclosedLevel (value.strength < bound) level) value
        (enclosed (value.strength < bound) tokens) := by
  unfold enclosedLevel enclosed
  split
  · exact ⟨.closed, Precedence.le_call _, .grouped rfl written rfl⟩
  · next tight => exact ⟨edge, strength ▸ Precedence.not_lt.mp tight, written⟩

theorem Expr.Written.enclosed_le {edge : Edge} {level : Nat} {value : Expr} {tokens : List Token}
    {bound : Precedence} (written : Expr.Written edge level value tokens)
    (strength : edge.strength = value.strength) (weak : bound < .call) :
    ∃ outer, bound < outer.strength ∧
      Expr.Written outer (enclosedLevel (value.strength ≤ bound) level) value
        (enclosed (value.strength ≤ bound) tokens) := by
  unfold enclosedLevel enclosed
  split
  · exact ⟨.closed, weak, .grouped rfl written rfl⟩
  · next tight => exact ⟨edge, strength ▸ Nat.lt_of_not_le tight, written⟩

theorem Name.WellFormed.eq_ofToken {name : Name} (wellFormed : name.WellFormed) :
    name = .ofToken name.token := by
  obtain ⟨token, text⟩ := name
  exact congrArg (Name.mk token) wellFormed.2

theorem Name.written_spelling {first : Name} {rest : List Name} (named : first.WellFormed)
    (others : ∀ name ∈ rest, name.WellFormed) :
    Name.WrittenList (first :: rest)
      ([.comma].intercalate ((first :: rest).map fun name => [name.token])) := by
  induction rest generalizing first with
  | nil =>
    rw [named.eq_ofToken]
    exact .single named.1
  | cons second rest ih =>
    have ⟨named', others'⟩ := List.forall_mem_cons.mp others
    have behind := ih named' others'
    rw [named.eq_ofToken, List.map_cons, List.map_cons, List.intercalate_cons_cons]
    exact .cons named.1 rfl behind

theorem Name.listed_spelling {names : List Name} (named : ∀ name ∈ names, name.WellFormed) :
    Name.Listed names
      ([.comma].intercalate (names.map fun name => [name.token]) ++ [.closeParen]) := by
  cases names with
  | nil => exact .none rfl
  | cons first rest =>
    have ⟨named, others⟩ := List.forall_mem_cons.mp named
    exact .some (Name.written_spelling named others) rfl

mutual

theorem Expr.written_spelling : ∀ (value : Expr), value.WellFormed →
    ∃ edge, edge.strength = value.strength ∧
      Expr.Written edge value.level value value.spelling
  | .identifier name, wellFormed => by
    rw [Expr.WellFormed] at wellFormed
    refine ⟨.closed, rfl, ?_⟩
    rw [Expr.level, Expr.spelling]
    rw [wellFormed.eq_ofToken]
    exact .identifier wellFormed.1
  | .integer token value, wellFormed => by
    rw [Expr.WellFormed] at wellFormed
    exact ⟨.closed, rfl, .integer wellFormed.1 wellFormed.2⟩
  | .boolean token value, wellFormed => by
    rw [Expr.WellFormed] at wellFormed
    refine ⟨.closed, rfl, ?_⟩
    have agrees : value = (token.kind = .trueWord : Bool) := by
      rcases wellFormed with ⟨kind, rfl⟩ | ⟨kind, rfl⟩ <;> simp [kind]
    rw [agrees]
    exact .boolean (wellFormed.imp And.left And.left)
  | .unary token operator operand, wellFormed => by
    rw [Expr.WellFormed] at wellFormed
    obtain ⟨operates, rfl, wellFormed⟩ := wellFormed
    obtain ⟨edge, strength, written⟩ := operand.written_spelling wellFormed
    obtain ⟨outer, tight, written⟩ := written.enclosed_lt strength
    exact ⟨⟨.unary, outer.dangling⟩, rfl, .unary operates written tight⟩
  | .binary token operator left right, wellFormed => by
    rw [Expr.WellFormed] at wellFormed
    obtain ⟨operates, rfl, wellFormed, wellFormed'⟩ := wellFormed
    obtain ⟨before, strength, first⟩ := left.written_spelling wellFormed
    obtain ⟨after, strength', second⟩ := right.written_spelling wellFormed'
    have weak : Rules.standard.level token.kind < .call :=
      Nat.lt_trans (Rules.level_binary operates).2 (by decide)
    obtain ⟨before, loose, first⟩ := first.enclosed_lt strength
    obtain ⟨after, tight, second⟩ := second.enclosed_le strength' weak
    exact ⟨_, rfl, .binary operates first loose second tight⟩
  | .conditional token condition consequence none, wellFormed => by
    rw [Expr.WellFormed] at wellFormed
    obtain ⟨chooses, wellFormed, wellFormed', -⟩ := wellFormed
    obtain ⟨edge, -, tested⟩ := condition.written_spelling wellFormed
    have chosen := consequence.written_spelling wellFormed'
    refine ⟨⟨.call, true⟩, rfl, ?_⟩
    simpa [Expr.level, Expr.spelling, Block.alternativeLevel, Block.alternativeSpelling] using
      Expr.Written.conditional chooses (show Token.openParen.kind = .openParen from rfl) tested
        (show Token.closeParen.kind = .closeParen from rfl) chosen
  | .conditional token condition consequence (some alternative), wellFormed => by
    rw [Expr.WellFormed] at wellFormed
    obtain ⟨chooses, wellFormed, wellFormed', wellFormed''⟩ := wellFormed
    obtain ⟨edge, -, tested⟩ := condition.written_spelling wellFormed
    have chosen := consequence.written_spelling wellFormed'
    have left := alternative.written_spelling wellFormed''
    refine ⟨.closed, rfl, ?_⟩
    simpa [Expr.level, Expr.spelling, Block.alternativeLevel, Block.alternativeSpelling] using
      Expr.Written.choice chooses (show Token.openParen.kind = .openParen from rfl) tested
        (show Token.closeParen.kind = .closeParen from rfl) chosen
        (show Token.elseWord.kind = .elseWord from rfl) left
  | .function token parameters body, wellFormed => by
    rw [Expr.WellFormed] at wellFormed
    obtain ⟨defines, named, wellFormed⟩ := wellFormed
    have does := body.written_spelling wellFormed
    refine ⟨.closed, rfl, ?_⟩
    simpa [Expr.level, Expr.spelling] using
      Expr.Written.function defines (show Token.openParen.kind = .openParen from rfl)
        (Name.listed_spelling named) does
  | .call token callee arguments, wellFormed => by
    rw [Expr.WellFormed] at wellFormed
    obtain ⟨opens, wellFormed, wellFormed'⟩ := wellFormed
    obtain ⟨edge, strength, first⟩ := callee.written_spelling wellFormed
    obtain ⟨outer, tight, first⟩ := first.enclosed_lt strength
    have tight := Precedence.eq_call tight
    refine ⟨.closed, rfl, ?_⟩
    rcases Expr.list_written_spelling arguments wellFormed' with rfl | ⟨last, given⟩
    · exact .call opens first tight (.none rfl)
    · exact .call opens first tight (.some given rfl)

theorem Expr.list_written_spelling : ∀ (values : List Expr), Expr.ListWellFormed values →
    values = [] ∨ ∃ edge, Expr.WrittenList edge (Expr.listLevel values) values
      ([.comma].intercalate (Expr.spellings values))
  | [], _ => .inl rfl
  | first :: rest, wellFormed => by
    rw [Expr.ListWellFormed] at wellFormed
    obtain ⟨edge, -, written⟩ := first.written_spelling wellFormed.1
    right
    rcases Expr.list_written_spelling rest wellFormed.2 with rfl | ⟨last, behind⟩
    · refine ⟨edge, ?_⟩
      simpa [Expr.listLevel, Expr.spellings] using .single written
    · refine ⟨last, ?_⟩
      cases rest with
      | nil => exact (behind.values_ne_nil rfl).elim
      | cons second rest =>
        rw [Expr.listLevel, Expr.spellings, Expr.spellings, List.intercalate_cons_cons,
          List.append_assoc]
        exact .cons written rfl behind

theorem Stmt.written_spelling : ∀ (statement : Stmt), statement.WellFormed →
    Stmt.Written none statement.level statement statement.spelling
  | .declaration token name value, wellFormed => by
    rw [Stmt.WellFormed] at wellFormed
    obtain ⟨declares, named, wellFormed⟩ := wellFormed
    obtain ⟨edge, -, given⟩ := value.written_spelling wellFormed
    rw [Stmt.level, Stmt.spelling]
    have written := Stmt.Written.declaration declares named.1
      (show Token.assign.kind = .assign from rfl) given
      (show Token.semicolon.kind = .semicolon from rfl)
    rwa [← named.eq_ofToken] at written
  | .ret token value, wellFormed => by
    rw [Stmt.WellFormed] at wellFormed
    obtain ⟨returns, wellFormed⟩ := wellFormed
    obtain ⟨edge, -, given⟩ := value.written_spelling wellFormed
    exact .ret returns given rfl
  | .expression token value, wellFormed => by
    rw [Stmt.WellFormed] at wellFormed
    obtain ⟨rfl, wellFormed⟩ := wellFormed
    obtain ⟨edge, -, given⟩ := value.written_spelling wellFormed
    obtain ⟨first, rest, spelled⟩ := List.exists_cons_of_ne_nil given.ne_nil
    rw [Stmt.level, Stmt.spelling]
    rw [spelled] at given ⊢
    exact .expression given rfl

theorem Stmt.list_written_spelling : ∀ (statements : List Stmt), Stmt.ListWellFormed statements →
    Stmt.WrittenList (Stmt.listLevel statements) statements (Stmt.listSpelling statements)
  | [], _ => .nil
  | first :: rest, wellFormed => by
    rw [Stmt.ListWellFormed] at wellFormed
    exact .cons (first.written_spelling wellFormed.1) (fun next _ => apart_none next.kind)
      (Stmt.list_written_spelling rest wellFormed.2)

theorem Block.written_spelling : ∀ (block : Block), block.WellFormed →
    Block.Written block.level block block.spelling
  | .mk token body, wellFormed => by
    rw [Block.WellFormed] at wellFormed
    exact .mk wellFormed.1 (Stmt.list_written_spelling body wellFormed.2) rfl

end

/-- The spellings of the statements of a program, one behind the other. -/
def Program.spelling (program : Program) : List Token := Stmt.listSpelling program.statements

theorem Stmt.listWellFormed_of_forall : ∀ {statements : List Stmt},
    (∀ statement ∈ statements, statement.WellFormed) → Stmt.ListWellFormed statements
  | [], _ => trivial
  | _ :: _, wellFormed => ⟨wellFormed _ (.head _), Stmt.listWellFormed_of_forall fun _ among =>
      wellFormed _ (.tail _ among)⟩

theorem Stmt.listLevel_le : ∀ {statements : List Stmt} {most : Nat},
    (∀ statement ∈ statements, statement.level ≤ most) → Stmt.listLevel statements ≤ most
  | [], _, _ => Nat.zero_le _
  | _ :: _, _, shallow => Nat.max_le.mpr ⟨shallow _ (.head _), Stmt.listLevel_le fun _ among =>
      shallow _ (.tail _ among)⟩

/-- Written statements that do not nest too deep are parsed without a diagnostic. -/
theorem Stmt.WrittenList.parse {level : Nat} {statements : List Stmt} {tokens : List Token}
    (written : Stmt.WrittenList level statements tokens) (shallow : level ≤ Parser.standardLimit) :
    ScriptReader.parse tokens = (⟨statements⟩, []) :=
  (written.run_whole (room_of_le (by omega))).result

theorem Expr.written_identifier (name : String) :
    Expr.Written .closed 1 (.identifier (.ofToken (.identifier name))) [.identifier name] :=
  .identifier rfl

/-- The tree of `(a + b) * c;`. -/
def productOfSum : Program :=
  let name (text : String) : Expr := .identifier (.ofToken (.identifier text))
  ⟨[.expression .openParen
    (.binary .star "*" (.binary .plus "+" (name "a") (name "b")) (name "c"))]⟩

/-- A program of well-formed statements is parsed back from its spelling, and with any further
parentheses from all its writings, as long as no statement nests too deep. -/
theorem parse_spelling :
    (∀ program : Program, (∀ statement ∈ program.statements, statement.WellFormed) →
      (∀ statement ∈ program.statements, statement.level ≤ Parser.standardLimit) →
      parse program.spelling = (program, [])) ∧
    ∀ (program : Program) (level : Nat) (tokens : List Token),
      Stmt.WrittenList level program.statements tokens → level ≤ Parser.standardLimit →
      parse tokens = (program, []) := by
  constructor
  · intro program wellFormed shallow
    have written := Stmt.list_written_spelling program.statements
      (Stmt.listWellFormed_of_forall wellFormed)
    exact written.parse (Stmt.listLevel_le shallow)
  · intro program level tokens written shallow
    exact written.parse shallow

/-- The parentheses around the sum are needed, those around `c` are not. -/
theorem parse_spelling_productOfSum :
    parse [Token.openParen, .identifier "a", .plus, .identifier "b", .closeParen, .star,
        .identifier "c", .semicolon] = (productOfSum, []) ∧
      parse [Token.openParen, .identifier "a", .plus, .identifier "b", .closeParen, .star,
        .openParen, .identifier "c", .closeParen, .semicolon] = (productOfSum, []) := by
  constructor
  · have wellFormed : ∀ statement ∈ productOfSum.statements, statement.WellFormed := by
      simp only [productOfSum, List.forall_mem_singleton, Stmt.WellFormed, Expr.WellFormed,
        Name.WellFormed, Name.ofToken]
      decide
    exact parse_spelling.1 productOfSum wellFormed (by decide)
  · have parenthesized {edge : Edge} {level : Nat} {value : Expr} {tokens : List Token}
        (inner : Expr.Written edge level value tokens) :
        Expr.Written .closed (level + 1) value (.openParen :: tokens ++ [.closeParen]) :=
      .grouped rfl inner rfl
    have sum := Expr.Written.binary (show Rules.standard.operator Token.plus.kind = _ from rfl)
      (Expr.written_identifier "a") (by decide) (Expr.written_identifier "b") (by decide)
    have product := Expr.Written.binary (show Rules.standard.operator Token.star.kind = _ from rfl)
      (parenthesized sum) (by decide) (parenthesized (Expr.written_identifier "c")) (by decide)
    have statement := Stmt.Written.expression product (show Token.semicolon.kind = _ from rfl)
    exact parse_spelling.2 productOfSum _ _ (.cons statement nofun .nil) (by decide)

end ScriptReader
