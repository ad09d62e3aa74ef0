import ScriptReader.Proofs.Run
import ScriptReader.Tree.Outline

/-! # The heights of expressions

The height of an expression is the number of expressions that have to be read inside one another for
it. A left operand and a callee are read at the place of the whole; parentheses, which leave no
trace, may only add to the number. So a writing is at least as deep as its tree is high, and so is
every expression inside the tree.
-/

namespace ScriptReader

mutual

def Expr.height : Expr → Nat
  | .identifier _ => 1
  | .integer _ _ => 1
  | .boolean _ _ => 1
  | .unary _ _ operand => operand.height + 1
  | .binary _ _ left right => max left.height (right.height + 1)
  | .conditional _ condition consequence alternative =>
    max condition.height (max consequence.height (Block.alternativeHeight alternative)) + 1
  | .function _ _ body => body.height + 1
  | .call _ callee arguments => max callee.height (Expr.listHeight arguments + 1)

def Expr.listHeight : List Expr → Nat
  | [] => 0
  | first :: rest => max first.height (Expr.listHeight rest)

def Stmt.height : Stmt → Nat
  | .declaration _ _ value => value.height
  | .ret _ value => value.height
  | .expression _ value => value.height

def Stmt.listHeight : List Stmt → Nat
  | [] => 0
  | first :: rest => max first.height (Stmt.listHeight rest)

def Block.height : Block → Nat
  | .mk _ body => Stmt.listHeight body

def Block.alternativeHeight : Option Block → Nat
  | none => 0
  | some block => block.height

end

/-- No expression among the nodes is higher than that. -/
def Node.Below (most : Nat) (nodes : List Node) : Prop :=
  ∀ value, .expression value ∈ nodes → value.height ≤ most

namespace Node

variable {most more : Nat} {nodes others : List Node}

theorem Below.mono (below : Below most nodes) (le : most ≤ more) : Below more nodes :=
  fun value among => Nat.le_trans (below value among) le

theorem below_append : Below most (nodes ++ others) ↔ Below most nodes ∧ Below most others := by
  simp only [Below, List.mem_append, or_imp, forall_and]

theorem below_expression {value : Expr} :
    Below most (.expression value :: nodes) ↔ value.height ≤ most ∧ Below most nodes := by
  simp [Below, or_imp, forall_and]

theorem below_cons {node : Node} (below : Below most nodes)
    (other : ∀ value, .expression value ≠ node) : Below most (node :: nodes) :=
  fun value among => below value ((List.mem_cons.mp among).resolve_left (other value))

end Node

mutual

/-- No part of an expression is higher than the whole. -/
theorem Expr.below_nodes : ∀ value : Expr, Node.Below value.height value.nodes
  | .identifier name => by simp [Node.Below, Expr.nodes]
  | .integer token value => by simp [Node.Below, Expr.nodes]
  | .boolean token value => by simp [Node.Below, Expr.nodes]
  | .unary token operator operand => by
    rw [Expr.nodes, Node.below_expression]
    exact ⟨Nat.le_refl _, operand.below_nodes.mono (Nat.le_succ _)⟩
  | .binary token operator left right => by
    rw [Expr.nodes, Node.below_expression, Node.below_append, Expr.height]
    exact ⟨Nat.le_refl _, left.below_nodes.mono (by omega), right.below_nodes.mono (by omega)⟩
  | .conditional token condition consequence alternative => by
    rw [Expr.nodes, Node.below_expression, Node.below_append, Node.below_append, Expr.height]
    exact ⟨Nat.le_refl _, ⟨condition.below_nodes.mono (by omega),
      consequence.below_nodes.mono (by omega)⟩,
      (Block.below_alternativeNodes alternative).mono (by omega)⟩
  | .function token parameters body => by
    rw [Expr.nodes, Node.below_expression, Node.below_append, Expr.height]
    exact ⟨Nat.le_refl _, by simp [Node.Below], body.below_nodes.mono (Nat.le_succ _)⟩
  | .call token callee arguments => by
    rw [Expr.nodes, Node.below_expression, Node.below_append, Expr.height]
    exact ⟨Nat.le_refl _, callee.below_nodes.mono (by omega),
      (Expr.below_listNodes arguments).mono (by omega)⟩

theorem Expr.below_listNodes : ∀ values : List Expr,
    Node.Below (Expr.listHeight values) (Expr.listNodes values)
  | [] => fun _ among => (List.not_mem_nil among).elim
  | first :: rest => by
    rw [Expr.listNodes, Node.below_append, Expr.listHeight]
    exact ⟨first.below_nodes.mono (Nat.le_max_left ..),
      (Expr.below_listNodes rest).mono (Nat.le_max_right ..)⟩

theorem Stmt.below_nodes : ∀ statement : Stmt, Node.Below statement.height statement.nodes
  | .declaration token name value => by
    rw [Stmt.nodes]
    exact Node.below_cons (Node.below_cons value.below_nodes nofun) nofun
  | .ret token value => by
    rw [Stmt.nodes]
    exact Node.below_cons value.below_nodes nofun
  | .expression token value => by
    rw [Stmt.nodes]
    exact Node.below_cons value.below_nodes nofun

theorem Stmt.below_listNodes : ∀ statements : List Stmt,
    Node.Below (Stmt.listHeight statements) (Stmt.listNodes statements)
  | [] => fun _ among => (List.not_mem_nil among).elim
  | first :: rest => by
    rw [Stmt.listNodes, Node.below_append, Stmt.listHeight]
    exact ⟨first.below_nodes.mono (Nat.le_max_left ..),
      (Stmt.below_listNodes rest).mono (Nat.le_max_right ..)⟩

theorem Block.below_nodes : ∀ block : Block, Node.Below block.height block.nodes
  | .mk token body => by
    rw [Block.nodes]
    exact Node.below_cons (Stmt.below_listNodes body) nofun

theorem Block.below_alternativeNodes : ∀ alternative : Option Block,
    Node.Below (Block.alternativeHeight alternative) (Block.alternativeNodes alternative)
  | none => fun _ among => (List.not_mem_nil among).elim
  | some block => block.below_nodes

end

mutual

/-- A writing is at least as deep as its tree is high. -/
theorem Expr.Written.height_le : ∀ {edge : Edge} {level : Nat} {value : Expr} {tokens : List Token},
    Expr.Written edge level value tokens → value.height ≤ level
  | _, _, _, _, .identifier _ => Nat.le_refl 1
  | _, _, _, _, .integer _ _ => Nat.le_refl 1
  | _, _, _, _, .boolean _ => Nat.le_refl 1
  | _, _, _, _, .grouped _ inner _ => Nat.le_succ_of_le inner.height_le
  | _, _, _, _, .unary _ inner _ => Nat.succ_le_succ inner.height_le
  | _, _, _, _, .binary _ first _ second _ => by
    have := first.height_le
    have := second.height_le
    rw [Expr.height]
    omega
  | _, _, _, _, .call _ first _ given => by
    have := first.height_le
    have := given.height_le
    rw [Expr.height]
    omega
  | _, _, _, _, .conditional _ _ tested _ chosen => by
    have := tested.height_le
    have := chosen.height_le
    rw [Expr.height, Block.alternativeHeight]
    omega
  | _, _, _, _, .choice _ _ tested _ chosen _ left => by
    have := tested.height_le
    have := chosen.height_le
    have := left.height_le
    rw [Expr.height, Block.alternativeHeight]
    omega
  | _, _, _, _, .function _ _ _ does => Nat.succ_le_succ does.height_le

theorem Expr.WrittenList.height_le : ∀ {edge : Edge} {level : Nat} {values : List Expr}
    {tokens : List Token}, Expr.WrittenList edge level values tokens →
      Expr.listHeight values ≤ level
  | _, _, _, _, .single only => by
    have := only.height_le
    rw [Expr.listHeight, Expr.listHeight]
    omega
  | _, _, _, _, .cons first _ rest => by
    have := first.height_le
    have := rest.height_le
    rw [Expr.listHeight]
    omega

theorem Expr.Listed.height_le : ∀ {level : Nat} {values : List Expr} {tokens : List Token},
    Expr.Listed level values tokens → Expr.listHeight values ≤ level
  | _, _, _, .none _ => Nat.le_refl 0
  | _, _, _, .some given _ => given.height_le

theorem Stmt.Written.height_le : ∀ {ending : Option Edge} {level : Nat} {statement : Stmt}
    {tokens : List Token}, Stmt.Written ending level statement tokens → statement.height ≤ level
  | _, _, _, _, .declaration _ _ _ given _ => given.height_le
  | _, _, _, _, .ret _ given _ => given.height_le
  | _, _, _, _, .expression given _ => given.height_le
  | _, _, _, _, .bare given _ => given.height_le

theorem Stmt.WrittenList.height_le : ∀ {level : Nat} {statements : List Stmt}
    {tokens : List Token}, Stmt.WrittenList level statements tokens →
      Stmt.listHeight statements ≤ level
  | _, _, _, .nil => Nat.le_refl 0
  | _, _, _, .cons first _ rest => by
    have := first.height_le
    have := rest.height_le
    rw [Stmt.listHeight]
    omega

theorem Block.Written.height_le : ∀ {level : Nat} {block : Block} {tokens : List Token},
    Block.Written level block tokens → block.height ≤ level
  | _, _, _, .mk _ statements _ => statements.height_le

end

/-- A statement is accepted with no expression in it that is higher than the limit. -/
theorem Parser.statement_below {p after : Parser (List Token)} {most : Nat} {statement : Stmt}
    (standard : p.rules = .standard) (limited : p.limit = some most)
    (ran : p.statement = .accepted statement after) : Node.Below most statement.nodes := by
  change (p.facing (p.current :: p.peek :: p.source)).statement = _ at ran
  obtain ⟨ending, level, tokens, rest, -, written, room, -, -⟩ := written_of_accepted standard ran
  have within : p.nesting + level ≤ most := room most limited
  have := written.height_le
  exact statement.below_nodes.mono (by omega)

/-- The statements of a run are no higher than the limit. -/
theorem Run.height_le {most : Nat} {tokens : List Token} {statements : List Stmt}
    {diagnostics : List Diagnostic} (run : Run (some most) tokens statements diagnostics) :
    Stmt.listHeight statements ≤ most := by
  induction run with
  | ended => exact Nat.zero_le _
  | statement written room _ _ ih =>
    rw [Stmt.listHeight]
    have := written.height_le
    have := room most rfl
    omega
  | recovery _ _ _ _ ih => exact ih

/-- No expression of a program is higher than the number of expressions that may be read inside one
another. -/
theorem parse_below (tokens : List Token) :
    Node.Below Parser.standardLimit (parse tokens).1.nodes := by
  rw [Program.nodes]
  exact Node.below_cons ((Stmt.below_listNodes _).mono (parse_run tokens).height_le) nofun

end ScriptReader
