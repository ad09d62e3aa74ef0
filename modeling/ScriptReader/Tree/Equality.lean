import ScriptReader.Tree.Basic

/-! # Equality of trees

Trees are equal when they agree node by node, every stored token included. The Boolean test below
decides this equality.
-/

namespace ScriptReader

mutual

def Expr.same : Expr → Expr → Bool
  | .identifier name, .identifier name' => name = name'
  | .integer token value, .integer token' value' => token = token' && value = value'
  | .boolean token value, .boolean token' value' => token = token' && value = value'
  | .unary token operator operand, .unary token' operator' operand' =>
    token = token' && operator = operator' && operand.same operand'
  | .binary token operator left right, .binary token' operator' left' right' =>
    token = token' && operator = operator' && left.same left' && right.same right'
  | .conditional token condition consequence alternative,
      .conditional token' condition' consequence' alternative' =>
    token = token' && condition.same condition' && consequence.same consequence' &&
      Block.sameOption alternative alternative'
  | .function token parameters body, .function token' parameters' body' =>
    token = token' && parameters = parameters' && body.same body'
  | .call token callee arguments, .call token' callee' arguments' =>
    token = token' && callee.same callee' && Expr.sameList arguments arguments'
  | _, _ => false

def Expr.sameList : List Expr → List Expr → Bool
  | [], [] => true
  | first :: rest, first' :: rest' => first.same first' && Expr.sameList rest rest'
  | _, _ => false

def Stmt.same : Stmt → Stmt → Bool
  | .declaration token name value, .declaration token' name' value' =>
    token = token' && name = name' && value.same value'
  | .ret token value, .ret token' value' => token = token' && value.same value'
  | .expression token value, .expression token' value' => token = token' && value.same value'
  | _, _ => false

def Stmt.sameList : List Stmt → List Stmt → Bool
  | [], [] => true
  | first :: rest, first' :: rest' => first.same first' && Stmt.sameList rest rest'
  | _, _ => false

def Block.same : Block → Block → Bool
  | .mk token body, .mk token' body' => token = token' && Stmt.sameList body body'

def Block.sameOption : Option Block → Option Block → Bool
  | none, none => true
  | some block, some block' => block.same block'
  | _, _ => false

end

mutual

theorem Expr.same_iff : ∀ left right : Expr, left.same right = true ↔ left = right
  | .identifier _, right => by cases right <;> simp [Expr.same]
  | .integer .., right => by cases right <;> simp [Expr.same]
  | .boolean .., right => by cases right <;> simp [Expr.same]
  | .unary _ _ operand, right => by
    cases right <;> simp [Expr.same, Expr.same_iff operand, and_assoc]
  | .binary _ _ left₁ right₁, right => by
    cases right <;> simp [Expr.same, Expr.same_iff left₁, Expr.same_iff right₁, and_assoc]
  | .conditional _ condition consequence alternative, right => by
    cases right <;> simp [Expr.same, Expr.same_iff condition, Block.same_iff consequence,
      Block.sameOption_iff alternative, and_assoc]
  | .function _ _ body, right => by
    cases right <;> simp [Expr.same, Block.same_iff body, and_assoc]
  | .call _ callee arguments, right => by
    cases right <;> simp [Expr.same, Expr.same_iff callee, Expr.sameList_iff arguments, and_assoc]

theorem Expr.sameList_iff : ∀ left right : List Expr,
    Expr.sameList left right = true ↔ left = right
  | [], right => by cases right <;> simp [Expr.sameList]
  | first :: rest, right => by
    cases right <;> simp [Expr.sameList, Expr.same_iff first, Expr.sameList_iff rest]

theorem Stmt.same_iff : ∀ left right : Stmt, left.same right = true ↔ left = right
  | .declaration _ _ value, right => by
    cases right <;> simp [Stmt.same, Expr.same_iff value, and_assoc]
  | .ret _ value, right => by cases right <;> simp [Stmt.same, Expr.same_iff value]
  | .expression _ value, right => by cases right <;> simp [Stmt.same, Expr.same_iff value]

theorem Stmt.sameList_iff : ∀ left right : List Stmt,
    Stmt.sameList left right = true ↔ left = right
  | [], right => by cases right <;> simp [Stmt.sameList]
  | first :: rest, right => by
    cases right <;> simp [Stmt.sameList, Stmt.same_iff first, Stmt.sameList_iff rest]

theorem Block.same_iff : ∀ left right : Block, left.same right = true ↔ left = right
  | .mk _ body, .mk _ body' => by simp [Block.same, Stmt.sameList_iff body]

theorem Block.sameOption_iff : ∀ left right : Option Block,
    Block.sameOption left right = true ↔ left = right
  | none, right => by cases right <;> simp [Block.sameOption]
  | some block, right => by cases right <;> simp [Block.sameOption, Block.same_iff block]

end

instance : DecidableEq Expr := fun left right => decidable_of_iff _ (Expr.same_iff left right)

instance : DecidableEq Stmt := fun left right => decidable_of_iff _ (Stmt.same_iff left right)

instance : DecidableEq Block := fun left right => decidable_of_iff _ (Block.same_iff left right)

deriving instance DecidableEq for Program

end ScriptReader
