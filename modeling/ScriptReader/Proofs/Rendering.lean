import ScriptReader.Proofs.Legibility

/-! # The rendering of a tree

The text of a tree puts every operator in parentheses of its own and leaves out the semicolon
behind an expression statement. Here are the tokens of that text, the number of expressions that are
read at once at its deepest point, and the tree that its tokens make. This tree differs from the
first one only in stored tokens, and its text is the same.
-/

namespace ScriptReader

open List (forall_mem_cons forall_mem_append)

section Retokened

variable (choose : Node → Token)

mutual

/-- The tree in which every node stores the token that is chosen for it. -/
def Expr.retokened : Expr → Expr
  | .identifier name => .identifier ⟨choose (.expression (.identifier name)), name.text⟩
  | .integer token value => .integer (choose (.expression (.integer token value))) value
  | .boolean token value => .boolean (choose (.expression (.boolean token value))) value
  | .unary token operator operand =>
    .unary (choose (.expression (.unary token operator operand))) operator operand.retokened
  | .binary token operator left right =>
    .binary (choose (.expression (.binary token operator left right))) operator left.retokened
      right.retokened
  | .conditional token condition consequence alternative =>
    .conditional (choose (.expression (.conditional token condition consequence alternative)))
      condition.retokened consequence.retokened (Block.alternativeRetokened alternative)
  | .function token parameters body =>
    .function (choose (.expression (.function token parameters body)))
      (parameters.map fun name => ⟨choose (.parameter name), name.text⟩) body.retokened
  | .call token callee arguments =>
    .call (choose (.expression (.call token callee arguments))) callee.retokened
      (Expr.listRetokened arguments)

def Expr.listRetokened : List Expr → List Expr
  | [] => []
  | first :: rest => first.retokened :: Expr.listRetokened rest

def Stmt.retokened : Stmt → Stmt
  | .declaration token name value =>
    .declaration (choose (.statement (.declaration token name value)))
      ⟨choose (.declared name), name.text⟩ value.retokened
  | .ret token value => .ret (choose (.statement (.ret token value))) value.retokened
  | .expression token value =>
    .expression (choose (.statement (.expression token value))) value.retokened

def Stmt.listRetokened : List Stmt → List Stmt
  | [] => []
  | first :: rest => first.retokened :: Stmt.listRetokened rest

def Block.retokened : Block → Block
  | .mk token body => .mk (choose (.block (.mk token body))) (Stmt.listRetokened body)

def Block.alternativeRetokened : Option Block → Option Block
  | none => none
  | some block => some block.retokened

end

def Program.retokened (program : Program) : Program :=
  ⟨Stmt.listRetokened choose program.statements⟩

end Retokened

/-- The program without the tokens that its nodes store. -/
def Program.erased (program : Program) : Program := program.retokened fun _ => .endOfInput

/-- The numeral of a value, without leading zeros. -/
def Token.numeral (value : Int) : Token := ⟨.integer, Numeral.text value⟩

/-- The token that a node stores when its tree is read back. Only integers and expression statements
may have stored another one. -/
def Node.renewed : Node → Token
  | .program _ => .endOfInput
  | .statement (.expression _ value) => value.token
  | .statement stmt => stmt.token
  | .block body => body.token
  | .expression (.integer _ value) => .numeral value
  | .expression expr => expr.token
  | .declared name => name.token
  | .parameter name => name.token

mutual

/-- The tokens of the text. -/
def Expr.rendering : Expr → List Token
  | .identifier name => [name.token]
  | .integer _ value => [.numeral value]
  | .boolean token _ => [token]
  | .unary token _ operand => .openParen :: (token :: operand.rendering) ++ [.closeParen]
  | .binary token _ left right =>
    .openParen :: (left.rendering ++ token :: right.rendering) ++ [.closeParen]
  | .conditional token condition consequence alternative =>
    token :: .openParen :: condition.rendering ++
      .closeParen :: (consequence.rendering ++ Block.alternativeRendering alternative)
  | .function token parameters body =>
    token :: .openParen :: ([.comma].intercalate (parameters.map fun name => [name.token]) ++
      .closeParen :: body.rendering)
  | .call token callee arguments =>
    callee.rendering ++
      token :: ([.comma].intercalate (Expr.renderings arguments) ++ [.closeParen])

def Expr.renderings : List Expr → List (List Token)
  | [] => []
  | first :: rest => first.rendering :: Expr.renderings rest

def Stmt.rendering : Stmt → List Token
  | .declaration token name value =>
    token :: name.token :: .assign :: value.rendering ++ [.semicolon]
  | .ret token value => token :: value.rendering ++ [.semicolon]
  | .expression _ value => value.rendering

/-- The renderings of statements, one behind the other. -/
def Stmt.listRendering : List Stmt → List Token
  | [] => []
  | first :: rest => first.rendering ++ Stmt.listRendering rest

def Block.rendering : Block → List Token
  | .mk token body => token :: Stmt.listRendering body ++ [.closeCurly]

def Block.alternativeRendering : Option Block → List Token
  | none => []
  | some block => .elseWord :: block.rendering

end

mutual

/-- The number of expressions that are read at once at the deepest point of the rendering. -/
def Expr.renderedLevel : Expr → Nat
  | .identifier _ => 1
  | .integer .. => 1
  | .boolean .. => 1
  | .unary _ _ operand => operand.renderedLevel + 2
  | .binary _ _ left right => max (left.renderedLevel + 1) (right.renderedLevel + 2)
  | .conditional _ condition consequence alternative =>
    max condition.renderedLevel
      (max consequence.renderedLevel (Block.alternativeRenderedLevel alternative)) + 1
  | .function _ _ body => body.renderedLevel + 1
  | .call _ callee arguments => max callee.renderedLevel (Expr.listRenderedLevel arguments + 1)

def Expr.listRenderedLevel : List Expr → Nat
  | [] => 0
  | first :: rest => max first.renderedLevel (Expr.listRenderedLevel rest)

def Stmt.renderedLevel : Stmt → Nat
  | .declaration _ _ value => value.renderedLevel
  | .ret _ value => value.renderedLevel
  | .expression _ value => value.renderedLevel

def Stmt.listRenderedLevel : List Stmt → Nat
  | [] => 0
  | first :: rest => max first.renderedLevel (Stmt.listRenderedLevel rest)

def Block.renderedLevel : Block → Nat
  | .mk _ body => Stmt.listRenderedLevel body

def Block.alternativeRenderedLevel : Option Block → Nat
  | none => 0
  | some block => block.renderedLevel

end

section Erasure

variable (choose : Node → Token) (blank : Token)

mutual

/-- Which tokens were stored does not matter when all of them are replaced. -/
theorem Expr.retokened_retokened : ∀ value : Expr,
    (value.retokened choose).retokened (fun _ => blank) = value.retokened fun _ => blank
  | .identifier _ => rfl
  | .integer .. => rfl
  | .boolean .. => rfl
  | .unary _ _ operand => by
    simp only [Expr.retokened, operand.retokened_retokened]
  | .binary _ _ left right => by
    simp only [Expr.retokened, left.retokened_retokened, right.retokened_retokened]
  | .conditional _ condition consequence alternative => by
    simp only [Expr.retokened, condition.retokened_retokened, consequence.retokened_retokened,
      Block.alternativeRetokened_retokened alternative]
  | .function _ parameters body => by
    simp only [Expr.retokened, body.retokened_retokened, List.map_map, Function.comp_def]
  | .call _ callee arguments => by
    simp only [Expr.retokened, callee.retokened_retokened,
      Expr.listRetokened_retokened arguments]

theorem Expr.listRetokened_retokened : ∀ values : List Expr,
    Expr.listRetokened (fun _ => blank) (Expr.listRetokened choose values) =
      Expr.listRetokened (fun _ => blank) values
  | [] => rfl
  | first :: rest => by
    simp only [Expr.listRetokened, first.retokened_retokened, Expr.listRetokened_retokened rest]

theorem Stmt.retokened_retokened : ∀ statement : Stmt,
    (statement.retokened choose).retokened (fun _ => blank) = statement.retokened fun _ => blank
  | .declaration _ _ value => by simp only [Stmt.retokened, value.retokened_retokened]
  | .ret _ value => by simp only [Stmt.retokened, value.retokened_retokened]
  | .expression _ value => by simp only [Stmt.retokened, value.retokened_retokened]

theorem Stmt.listRetokened_retokened : ∀ statements : List Stmt,
    Stmt.listRetokened (fun _ => blank) (Stmt.listRetokened choose statements) =
      Stmt.listRetokened (fun _ => blank) statements
  | [] => rfl
  | first :: rest => by
    simp only [Stmt.listRetokened, first.retokened_retokened, Stmt.listRetokened_retokened rest]

theorem Block.retokened_retokened : ∀ block : Block,
    (block.retokened choose).retokened (fun _ => blank) = block.retokened fun _ => blank
  | .mk _ body => by simp only [Block.retokened, Stmt.listRetokened_retokened body]

theorem Block.alternativeRetokened_retokened : ∀ block : Option Block,
    Block.alternativeRetokened (fun _ => blank) (Block.alternativeRetokened choose block) =
      Block.alternativeRetokened (fun _ => blank) block
  | none => rfl
  | some block => by simp only [Block.alternativeRetokened, block.retokened_retokened]

end

end Erasure

theorem Program.erased_retokened (choose : Node → Token) (program : Program) :
    (program.retokened choose).erased = program.erased :=
  congrArg Program.mk (Stmt.listRetokened_retokened choose .endOfInput program.statements)

mutual

/-- No text changes when a tree is read back. -/
theorem Expr.text_renewed : ∀ value : Expr, (value.retokened Node.renewed).text = value.text
  | .identifier _ => rfl
  | .integer .. => rfl
  | .boolean .. => rfl
  | .unary _ _ operand => by simp only [Expr.retokened, Expr.text, operand.text_renewed]
  | .binary _ _ left right => by
    simp only [Expr.retokened, Expr.text, left.text_renewed, right.text_renewed]
  | .conditional _ condition consequence alternative => by
    simp only [Expr.retokened, Expr.text, condition.text_renewed, consequence.text_renewed,
      Block.alternativeText_renewed alternative]
  | .function token parameters body => by
    simp only [Expr.retokened, Expr.text, body.text_renewed, List.map_map, Function.comp_def,
      Node.renewed, Expr.token]
  | .call _ callee arguments => by
    simp only [Expr.retokened, Expr.text, callee.text_renewed, Expr.texts_renewed arguments]

theorem Expr.texts_renewed : ∀ values : List Expr,
    Expr.texts (Expr.listRetokened Node.renewed values) = Expr.texts values
  | [] => rfl
  | first :: rest => by
    simp only [Expr.listRetokened, Expr.texts, first.text_renewed, Expr.texts_renewed rest]

theorem Stmt.text_renewed : ∀ statement : Stmt,
    (statement.retokened Node.renewed).text = statement.text
  | .declaration _ _ value => by
    simp only [Stmt.retokened, Stmt.text, value.text_renewed, Node.renewed, Stmt.token]
  | .ret _ value => by
    simp only [Stmt.retokened, Stmt.text, value.text_renewed, Node.renewed, Stmt.token]
  | .expression _ value => by simp only [Stmt.retokened, Stmt.text, value.text_renewed]

theorem Stmt.blockText_renewed : ∀ statements : List Stmt,
    Stmt.blockText (Stmt.listRetokened Node.renewed statements) = Stmt.blockText statements
  | [] => rfl
  | first :: rest => by
    simp only [Stmt.listRetokened, Stmt.blockText, first.text_renewed,
      Stmt.blockText_renewed rest]

theorem Block.text_renewed : ∀ block : Block, (block.retokened Node.renewed).text = block.text
  | .mk _ body => by simp only [Block.retokened, Block.text, Stmt.blockText_renewed body]

theorem Block.alternativeText_renewed : ∀ block : Option Block,
    Block.alternativeText (Block.alternativeRetokened Node.renewed block) =
      Block.alternativeText block
  | none => rfl
  | some block => by
    simp only [Block.alternativeRetokened, Block.alternativeText, block.text_renewed]

end

theorem Program.text_renewed (program : Program) :
    (program.retokened Node.renewed).text = program.text := by
  have each : ∀ statements : List Stmt,
      (Stmt.listRetokened Node.renewed statements).map Stmt.text = statements.map Stmt.text := by
    intro statements
    induction statements with
    | nil => rfl
    | cons first rest ih =>
      rw [Stmt.listRetokened, List.map_cons, List.map_cons, first.text_renewed, ih]
  rw [text, text, retokened, each]

/-- The node is as reading a text leaves it, and complete without a semicolon. -/
def Node.Readable (node : Node) : Prop := node.Legible ∧ node.Bracketed

/-- What is not negative is written in digits, with no sign. -/
theorem Numeral.text_eq_ofList {value : Int} (natural : 0 ≤ value) :
    ∃ digits ≠ [], (∀ c ∈ digits, c.isDigit = true) ∧ Numeral.text value = String.ofList digits ∧
      Nat.ofDigitChars 10 digits 0 = value := by
  obtain ⟨magnitude, rfl⟩ := Int.eq_ofNat_of_zero_le natural
  refine ⟨Nat.toDigits 10 magnitude, Nat.toDigits_ne_nil, fun c among => ?_,
    Nat.repr_eq_ofList_toDigits, ?_⟩
  · exact Nat.isDigit_of_mem_toDigits (by decide) (Nat.le_refl 10) among
  · rw [Nat.ofDigitChars_toDigits (by decide) (by decide)]

theorem Numeral.signed?_text {value : Int} (natural : 0 ≤ value) (fits : Numeral.Fits value) :
    Numeral.signed? (Numeral.text value) = some value := by
  obtain ⟨digits, nonempty, parts, written, denoted⟩ := Numeral.text_eq_ofList natural
  have read : natural? digits = some (Nat.ofDigitChars 10 digits 0) :=
    if_pos ⟨nonempty, List.all_eq_true.mpr parts⟩
  have whole : integer? digits = some value := by
    unfold integer?
    split
    · exact absurd (parts '+' (.head _)) (by decide)
    · exact absurd (parts '-' (.head _)) (by decide)
    · rw [read]
      exact congrArg some denoted
  rw [signed?, written, String.toList_ofList, whole, Option.filter_some,
    if_pos (by simpa using fits)]

/-- The statement begins with a word, so it is never drawn into the statement before it. -/
theorem Stmt.apart_rendering {statement : Stmt} (readable : ∀ node ∈ statement.nodes, node.Readable)
    (ending : Option Edge) : ∃ first rest, statement.rendering = first :: rest ∧
      Apart ending first.kind := by
  have word {kind : Kind} (plain : Rules.standard.level kind = .lowest)
      (other : kind ≠ .elseWord ∧ kind ≠ .semicolon) : Apart ending kind :=
    fun edge _ => ⟨edge.endsBefore_lowest plain other.1, other.2⟩
  cases statement with
  | declaration token name value =>
    have kind := (readable _ (.head _)).1.2
    exact ⟨token, _, rfl, kind ▸ word rfl (by decide)⟩
  | ret token value =>
    have kind := (readable _ (.head _)).1.2
    exact ⟨token, _, rfl, kind ▸ word rfl (by decide)⟩
  | expression token value =>
    have bracketed : value.endsWithBlock = true := (readable _ (.head _)).2
    have inner : ∀ node ∈ value.nodes, node.Readable := (forall_mem_cons.mp readable).2
    cases value with
    | conditional token _ _ _ =>
      have kind := (inner _ (.head _)).1.2
      exact ⟨token, _, rfl, kind ▸ word rfl (by decide)⟩
    | function token _ _ =>
      have kind := (inner _ (.head _)).1.2
      exact ⟨token, _, rfl, kind ▸ word rfl (by decide)⟩
    | _ => cases bracketed

theorem Stmt.apart_listRendering {statements : List Stmt}
    (readable : ∀ node ∈ Stmt.listNodes statements, node.Readable) (ending : Option Edge) :
    ∀ next ∈ (Stmt.listRendering statements).head?, Apart ending next.kind := by
  cases statements with
  | nil => nofun
  | cons statement statements =>
    obtain ⟨first, rest, begins, apart⟩ :=
      Stmt.apart_rendering (forall_mem_append.mp readable).1 ending
    rw [Stmt.listRendering, begins]
    rintro next ⟨⟩
    exact apart

mutual

/-- The rendering of an expression is a writing of the expression with renewed tokens. -/
theorem Expr.written_rendering : ∀ value : Expr, (∀ node ∈ value.nodes, node.Readable) →
    ∃ edge : Edge, edge.strength = .call ∧
      Expr.Written edge value.renderedLevel (value.retokened Node.renewed) value.rendering
  | .identifier name, readable => by
    have legible : name.Legible := (readable _ (.head _)).1
    refine ⟨.closed, rfl, ?_⟩
    rw [Expr.rendering, legible.2.eq_ofToken]
    exact .identifier legible.2.1
  | .integer token value, readable => by
    have legible : 0 ≤ value ∧ Numeral.Fits value := (readable _ (.head _)).1
    exact ⟨.closed, rfl, .integer rfl (Numeral.signed?_text legible.1 legible.2)⟩
  | .boolean token value, readable => by
    have legible := (readable _ (.head _)).1.2
    have agrees : value = (token.kind = .trueWord : Bool) := by
      rcases legible with ⟨kind, rfl⟩ | ⟨kind, rfl⟩ <;> simp [kind]
    refine ⟨.closed, rfl, ?_⟩
    rw [agrees]
    exact .boolean (legible.imp And.left And.left)
  | .unary token operator operand, readable => by
    obtain ⟨⟨⟨-, operates, rfl⟩, -⟩, inner⟩ := forall_mem_cons.mp readable
    obtain ⟨edge, strength, written⟩ := operand.written_rendering inner
    have tight : .unary ≤ edge.strength := by
      rw [strength]
      decide
    exact ⟨.closed, rfl, .grouped rfl (.unary operates written tight) rfl⟩
  | .binary token operator left right, readable => by
    obtain ⟨⟨⟨-, operates, rfl⟩, -⟩, inner⟩ := forall_mem_cons.mp readable
    obtain ⟨inner, inner'⟩ := forall_mem_append.mp inner
    obtain ⟨before, strength, first⟩ := left.written_rendering inner
    obtain ⟨after, strength', second⟩ := right.written_rendering inner'
    have weak : Rules.standard.level token.kind < .call :=
      Nat.lt_trans (Rules.level_binary operates).2 (by decide)
    -- The operands hold as tightly as a call, so no precedence has to be looked at.
    have sum := Expr.Written.binary operates first (strength ▸ Precedence.le_call _) second
      (strength' ▸ weak)
    refine ⟨.closed, rfl, ?_⟩
    rw [Expr.renderedLevel, Nat.add_max_add_right _ (right.renderedLevel + 1)]
    exact .grouped rfl sum rfl
  | .conditional token condition consequence none, readable => by
    obtain ⟨⟨⟨-, chooses⟩, -⟩, readable⟩ := forall_mem_cons.mp readable
    obtain ⟨readable, -⟩ := forall_mem_append.mp readable
    obtain ⟨readable, readable'⟩ := forall_mem_append.mp readable
    obtain ⟨edge, -, tested⟩ := condition.written_rendering readable
    have chosen := consequence.written_rendering readable'
    refine ⟨⟨.call, true⟩, rfl, ?_⟩
    rw [Expr.renderedLevel, Block.alternativeRenderedLevel, Nat.max_zero, Expr.rendering,
      Block.alternativeRendering, List.append_nil]
    exact .conditional chooses rfl tested rfl chosen
  | .conditional token condition consequence (some alternative), readable => by
    obtain ⟨⟨⟨-, chooses⟩, -⟩, readable⟩ := forall_mem_cons.mp readable
    obtain ⟨readable, readable''⟩ := forall_mem_append.mp readable
    obtain ⟨readable, readable'⟩ := forall_mem_append.mp readable
    obtain ⟨edge, -, tested⟩ := condition.written_rendering readable
    have chosen := consequence.written_rendering readable'
    have left := alternative.written_rendering readable''
    refine ⟨.closed, rfl, ?_⟩
    rw [Expr.rendering, Block.alternativeRendering, ← List.cons_append, ← List.append_assoc]
    exact .choice chooses rfl tested rfl chosen rfl left
  | .function token parameters body, readable => by
    obtain ⟨⟨⟨-, defines⟩, -⟩, readable⟩ := forall_mem_cons.mp readable
    obtain ⟨legible, readable⟩ := forall_mem_append.mp readable
    have named : ∀ name ∈ parameters, name.WellFormed := fun name among =>
      (legible _ (List.mem_map_of_mem among)).1.2
    have same : (parameters.map fun name => ⟨Node.renewed (.parameter name), name.text⟩) =
        parameters := List.map_id parameters
    refine ⟨.closed, rfl, ?_⟩
    rw [Expr.retokened, same, Expr.rendering, List.append_cons, ← List.cons_append,
      ← List.cons_append]
    exact .function defines rfl (Name.listed_spelling named) (body.written_rendering readable)
  | .call token callee arguments, readable => by
    obtain ⟨⟨⟨-, opens⟩, -⟩, readable⟩ := forall_mem_cons.mp readable
    obtain ⟨readable, readable'⟩ := forall_mem_append.mp readable
    obtain ⟨edge, tight, first⟩ := callee.written_rendering readable
    refine ⟨.closed, rfl, .call opens first tight ?_⟩
    rcases Expr.list_written_rendering arguments readable' with rfl | ⟨last, given⟩
    · exact .none rfl
    · exact .some given rfl

theorem Expr.list_written_rendering : ∀ values : List Expr,
    (∀ node ∈ Expr.listNodes values, node.Readable) → values = [] ∨
      ∃ edge, Expr.WrittenList edge (Expr.listRenderedLevel values)
        (Expr.listRetokened Node.renewed values) ([.comma].intercalate (Expr.renderings values))
  | [], _ => .inl rfl
  | first :: rest, readable => by
    obtain ⟨readable, readable'⟩ := forall_mem_append.mp readable
    obtain ⟨edge, -, written⟩ := first.written_rendering readable
    right
    rcases Expr.list_written_rendering rest readable' with rfl | ⟨last, behind⟩
    · refine ⟨edge, ?_⟩
      rw [Expr.listRenderedLevel, Expr.listRenderedLevel, Nat.max_zero, Expr.renderings,
        Expr.renderings, List.intercalate_singleton]
      exact .single written
    · refine ⟨last, ?_⟩
      cases rest with
      | nil => exact (behind.values_ne_nil rfl).elim
      | cons second rest =>
        rw [Expr.renderings, Expr.renderings, List.intercalate_cons_cons, List.append_assoc]
        exact .cons written rfl behind

theorem Stmt.written_rendering : ∀ statement : Stmt,
    (∀ node ∈ statement.nodes, node.Readable) →
      ∃ ending, Stmt.Written ending statement.renderedLevel (statement.retokened Node.renewed)
        statement.rendering
  | .declaration token name value, readable => by
    obtain ⟨⟨⟨-, declares⟩, -⟩, readable⟩ := forall_mem_cons.mp readable
    obtain ⟨⟨⟨-, named⟩, -⟩, readable⟩ := forall_mem_cons.mp readable
    obtain ⟨edge, -, given⟩ := value.written_rendering readable
    have written := Stmt.Written.declaration declares named.1
      (show Token.assign.kind = .assign from rfl) given
      (show Token.semicolon.kind = .semicolon from rfl)
    rw [← named.eq_ofToken] at written
    exact ⟨_, written⟩
  | .ret token value, readable => by
    obtain ⟨⟨⟨-, returns⟩, -⟩, readable⟩ := forall_mem_cons.mp readable
    obtain ⟨edge, -, given⟩ := value.written_rendering readable
    exact ⟨_, .ret returns given rfl⟩
  | .expression _ value, readable => by
    obtain ⟨⟨-, bracketed⟩, readable⟩ := forall_mem_cons.mp readable
    obtain ⟨edge, -, given⟩ := value.written_rendering readable
    cases value with
    | conditional => exact ⟨_, .bare given rfl⟩
    | function => exact ⟨_, .bare given rfl⟩
    | _ => cases bracketed

theorem Stmt.list_written_rendering : ∀ statements : List Stmt,
    (∀ node ∈ Stmt.listNodes statements, node.Readable) →
      Stmt.WrittenList (Stmt.listRenderedLevel statements)
        (Stmt.listRetokened Node.renewed statements) (Stmt.listRendering statements)
  | [], _ => .nil
  | first :: rest, readable => by
    obtain ⟨readable, readable'⟩ := forall_mem_append.mp readable
    obtain ⟨ending, written⟩ := first.written_rendering readable
    exact .cons written (Stmt.apart_listRendering readable' ending)
      (Stmt.list_written_rendering rest readable')

theorem Block.written_rendering : ∀ block : Block, (∀ node ∈ block.nodes, node.Readable) →
    Block.Written block.renderedLevel (block.retokened Node.renewed) block.rendering
  | .mk token body, readable => by
    obtain ⟨⟨⟨-, opens⟩, -⟩, readable⟩ := forall_mem_cons.mp readable
    exact .mk opens (Stmt.list_written_rendering body readable) rfl

end

end ScriptReader
