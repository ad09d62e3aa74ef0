import ScriptReader.Proofs.Lexemes
import ScriptReader.Proofs.Run
import ScriptReader.Proofs.Spelling
import ScriptReader.Tree.Outline

/-! # Legible trees

In a tree that was read from a text, what the nodes store agrees with the text: every token is
spelled as a scanner reads it and has the kind that its node wants, names and operators are those of
their tokens, and no integer is negative or too large.
-/

namespace ScriptReader

open List (forall_mem_nil forall_mem_cons forall_mem_append)

/-- The token of the name is one that a scanner makes, and the name is that of its token. -/
def Name.Legible (name : Name) : Prop := name.token.Spelled ∧ name.WellFormed

namespace Node

/-- An expression statement ends in a block, so that its text is complete without a semicolon. -/
def Bracketed : Node → Prop
  | .statement (.expression _ value) => value.endsWithBlock = true
  | _ => True

instance : DecidablePred Bracketed
  | .program _ => .isTrue trivial
  | .statement (.declaration ..) => .isTrue trivial
  | .statement (.ret ..) => .isTrue trivial
  | .statement (.expression _ value) => decEq value.endsWithBlock true
  | .block _ => .isTrue trivial
  | .expression _ => .isTrue trivial
  | .declared _ => .isTrue trivial
  | .parameter _ => .isTrue trivial

/-- What a node stores and its text shows is what the text is read back to. -/
def Legible : Node → Prop
  | .program _ => True
  | .statement (.declaration token _ _) => token.Spelled ∧ token.kind = .varWord
  | .statement (.ret token _) => token.Spelled ∧ token.kind = .returnWord
  | .statement (.expression ..) => True
  | .block body => body.token.Spelled ∧ body.token.kind = .openCurly
  | .expression (.identifier name) => name.Legible
  | .expression (.integer _ value) => 0 ≤ value ∧ Numeral.Fits value
  | .expression (.boolean token value) => token.Spelled ∧
    (token.kind = .trueWord ∧ value = true ∨ token.kind = .falseWord ∧ value = false)
  | .expression (.unary token operator _) =>
    token.Spelled ∧ (token.kind = .not ∨ token.kind = .minus) ∧ operator = token.literal
  | .expression (.binary token operator _ _) =>
    token.Spelled ∧ Rules.standard.operator token.kind = some .binary ∧ operator = token.literal
  | .expression (.conditional token ..) => token.Spelled ∧ token.kind = .ifWord
  | .expression (.function token ..) => token.Spelled ∧ token.kind = .fnWord
  | .expression (.call token ..) => token.Spelled ∧ token.kind = .openParen
  | .declared name => name.Legible
  | .parameter name => name.Legible

end Node

/-- Digits without a sign stand for a number that is not negative. -/
theorem Numeral.signed?_of_digits {digits : List Char} {value : Int}
    (parts : ∀ c ∈ digits, c.isDigit = true)
    (found : Numeral.signed? (String.ofList digits) = some value) :
    0 ≤ value ∧ Numeral.Fits value := by
  rw [signed?, String.toList_ofList, Option.filter_eq_some_iff] at found
  refine ⟨?_, by simpa using found.2⟩
  have found := found.1
  unfold integer? at found
  split at found
  · exact absurd (parts '+' (.head _)) (by decide)
  · exact absurd (parts '-' (.head _)) (by decide)
  · obtain ⟨magnitude, -, rfl⟩ := Option.map_eq_some_iff.mp found
    exact Int.natCast_nonneg magnitude

theorem Token.Spelled.signed? {token : Token} {value : Int} (spelled : token.Spelled)
    (numeral : token.kind = .integer) (found : Numeral.signed? token.literal = some value) :
    0 ≤ value ∧ Numeral.Fits value := by
  cases spelled with
  | @word word _ _ =>
    rcases Kind.ofWord_eq (String.ofList word) with named | among
    · rw [named] at numeral
      cases numeral
    · have fixed : ∀ entry ∈ Kind.reserved, entry.2 ≠ .integer := by decide
      exact absurd numeral (fixed _ among)
  | number _ parts => exact Numeral.signed?_of_digits parts found
  | @symbol c =>
    revert numeral
    unfold Kind.ofSymbol?
    split <;> exact nofun
  | @pair c kind pairs =>
    revert pairs
    unfold Kind.withEquals?
    split <;> rintro ⟨⟩ <;> cases numeral

theorem Name.WrittenList.legible {names : List Name} {tokens : List Token}
    (written : Name.WrittenList names tokens) (spelled : ∀ token ∈ tokens, token.Spelled) :
    ∀ node ∈ names.map Node.parameter, node.Legible := by
  induction written with
  | single named =>
    rw [forall_mem_cons] at spelled
    rw [List.map_singleton, forall_mem_cons]
    exact ⟨⟨spelled.1, named, rfl⟩, forall_mem_nil _⟩
  | cons named separated rest ih =>
    rw [forall_mem_cons, forall_mem_cons] at spelled
    rw [List.map_cons, forall_mem_cons]
    exact ⟨⟨spelled.1, named, rfl⟩, ih spelled.2.2⟩

theorem Name.Listed.legible {names : List Name} {tokens : List Token}
    (listed : Name.Listed names tokens) (spelled : ∀ token ∈ tokens, token.Spelled) :
    ∀ node ∈ names.map Node.parameter, node.Legible := by
  cases listed with
  | none => exact forall_mem_nil _
  | some given => exact given.legible (forall_mem_append.mp spelled).1

mutual

theorem Expr.Written.legible : ∀ {edge : Edge} {level : Nat} {value : Expr} {tokens : List Token},
    Expr.Written edge level value tokens → (∀ token ∈ tokens, token.Spelled) →
      ∀ node ∈ value.nodes, node.Legible
  | _, _, _, _, .identifier named, spelled =>
    forall_mem_cons.mpr ⟨⟨(forall_mem_cons.mp spelled).1, named, rfl⟩, forall_mem_nil _⟩
  | _, _, _, _, .integer numeral fits, spelled =>
    forall_mem_cons.mpr ⟨(forall_mem_cons.mp spelled).1.signed? numeral fits, forall_mem_nil _⟩
  | _, _, _, _, .boolean truth, spelled => by
    refine forall_mem_cons.mpr ⟨⟨(forall_mem_cons.mp spelled).1, ?_⟩, forall_mem_nil _⟩
    exact truth.imp (fun truth => ⟨truth, by simp [truth]⟩) fun truth => ⟨truth, by simp [truth]⟩
  | _, _, _, _, .grouped _ inner _, spelled => by
    rw [List.cons_append, forall_mem_cons, forall_mem_append] at spelled
    exact inner.legible spelled.2.1
  | _, _, _, _, .unary operates inner _, spelled => by
    rw [forall_mem_cons] at spelled
    exact forall_mem_cons.mpr ⟨⟨spelled.1, operates, rfl⟩, inner.legible spelled.2⟩
  | _, _, _, _, .binary operates first _ second _, spelled => by
    rw [forall_mem_append, forall_mem_cons] at spelled
    obtain ⟨before, spelled, after⟩ := spelled
    exact forall_mem_cons.mpr ⟨⟨spelled, operates, rfl⟩,
      forall_mem_append.mpr ⟨first.legible before, second.legible after⟩⟩
  | _, _, _, _, .call opens first _ given, spelled => by
    rw [forall_mem_append, forall_mem_cons] at spelled
    obtain ⟨before, spelled, after⟩ := spelled
    exact forall_mem_cons.mpr ⟨⟨spelled, opens⟩,
      forall_mem_append.mpr ⟨first.legible before, given.legible after⟩⟩
  | _, _, _, _, .conditional chooses _ tested _ chosen, spelled => by
    rw [List.cons_append, List.cons_append, forall_mem_cons, forall_mem_cons, forall_mem_append,
      forall_mem_cons] at spelled
    obtain ⟨spelled, -, inside, -, block⟩ := spelled
    rw [Expr.nodes, Block.alternativeNodes, List.append_nil]
    exact forall_mem_cons.mpr ⟨⟨spelled, chooses⟩,
      forall_mem_append.mpr ⟨tested.legible inside, chosen.legible block⟩⟩
  | _, _, _, _, .choice chooses _ tested _ chosen _ left, spelled => by
    simp only [List.cons_append, List.append_assoc, forall_mem_cons, forall_mem_append] at spelled
    obtain ⟨spelled, -, inside, -, block, -, other⟩ := spelled
    rw [Expr.nodes, Block.alternativeNodes, List.append_assoc]
    exact forall_mem_cons.mpr ⟨⟨spelled, chooses⟩,
      forall_mem_append.mpr ⟨tested.legible inside,
        forall_mem_append.mpr ⟨chosen.legible block, left.legible other⟩⟩⟩
  | _, _, _, _, .function defines _ parameters does, spelled => by
    rw [List.cons_append, List.cons_append, forall_mem_cons, forall_mem_cons,
      forall_mem_append] at spelled
    obtain ⟨spelled, -, names, block⟩ := spelled
    exact forall_mem_cons.mpr ⟨⟨spelled, defines⟩,
      forall_mem_append.mpr ⟨parameters.legible names, does.legible block⟩⟩

theorem Expr.WrittenList.legible : ∀ {edge : Edge} {level : Nat} {values : List Expr}
    {tokens : List Token}, Expr.WrittenList edge level values tokens →
      (∀ token ∈ tokens, token.Spelled) → ∀ node ∈ Expr.listNodes values, node.Legible
  | _, _, _, _, .single only, spelled =>
    forall_mem_append.mpr ⟨only.legible spelled, forall_mem_nil _⟩
  | _, _, _, _, .cons first _ rest, spelled => by
    rw [forall_mem_append, forall_mem_cons] at spelled
    exact forall_mem_append.mpr ⟨first.legible spelled.1, rest.legible spelled.2.2⟩

theorem Expr.Listed.legible : ∀ {level : Nat} {values : List Expr} {tokens : List Token},
    Expr.Listed level values tokens → (∀ token ∈ tokens, token.Spelled) →
      ∀ node ∈ Expr.listNodes values, node.Legible
  | _, _, _, .none _, _ => forall_mem_nil _
  | _, _, _, .some given _, spelled => given.legible (forall_mem_append.mp spelled).1

theorem Stmt.Written.legible : ∀ {ending : Option Edge} {level : Nat} {statement : Stmt}
    {tokens : List Token}, Stmt.Written ending level statement tokens →
      (∀ token ∈ tokens, token.Spelled) → ∀ node ∈ statement.nodes, node.Legible
  | _, _, _, _, .declaration declares named _ given _, spelled => by
    simp only [List.cons_append, forall_mem_cons, forall_mem_append] at spelled
    obtain ⟨spelled, name, -, value, -⟩ := spelled
    exact forall_mem_cons.mpr ⟨⟨spelled, declares⟩,
      forall_mem_cons.mpr ⟨⟨name, named, rfl⟩, given.legible value⟩⟩
  | _, _, _, _, .ret returns given _, spelled => by
    rw [List.cons_append, forall_mem_cons, forall_mem_append] at spelled
    exact forall_mem_cons.mpr ⟨⟨spelled.1, returns⟩, given.legible spelled.2.1⟩
  | _, _, _, _, .expression given _, spelled =>
    forall_mem_cons.mpr ⟨trivial, given.legible (forall_mem_append.mp spelled).1⟩
  | _, _, _, _, .bare given _, spelled => forall_mem_cons.mpr ⟨trivial, given.legible spelled⟩

theorem Stmt.WrittenList.legible : ∀ {level : Nat} {statements : List Stmt}
    {tokens : List Token}, Stmt.WrittenList level statements tokens →
      (∀ token ∈ tokens, token.Spelled) → ∀ node ∈ Stmt.listNodes statements, node.Legible
  | _, _, _, .nil, _ => forall_mem_nil _
  | _, _, _, .cons first _ rest, spelled => by
    rw [forall_mem_append] at spelled
    exact forall_mem_append.mpr ⟨first.legible spelled.1, rest.legible spelled.2⟩

theorem Block.Written.legible : ∀ {level : Nat} {block : Block} {tokens : List Token},
    Block.Written level block tokens → (∀ token ∈ tokens, token.Spelled) →
      ∀ node ∈ block.nodes, node.Legible
  | _, _, _, .mk opens statements _, spelled => by
    rw [List.cons_append, forall_mem_cons, forall_mem_append] at spelled
    exact forall_mem_cons.mpr ⟨⟨spelled.1, opens⟩, statements.legible spelled.2.1⟩

end

/-- What is read from the tokens of a scanner is legible. -/
theorem Run.legible {limit : Option Nat} {tokens : List Token} {statements : List Stmt}
    {diagnostics : List Diagnostic} (run : Run limit tokens statements diagnostics)
    (spelled : ∀ token ∈ tokens, token.Spelled) :
    ∀ node ∈ Stmt.listNodes statements, node.Legible := by
  induction run with
  | ended => exact forall_mem_nil _
  | statement written _ _ _ ih =>
    rw [forall_mem_append] at spelled
    exact forall_mem_append.mpr ⟨written.legible spelled.1, ih spelled.2⟩
  | @recovery count diagnostic _ _ tokens rest _ _ _ _ ih =>
    exact ih fun token among =>
      spelled token ((resumed_blamed_suffix count diagnostic tokens rest).mem among)

/-- What is read from a text is legible. -/
theorem parseText_legible (source : String) :
    ∀ node ∈ Stmt.listNodes (parseText source).1.statements, node.Legible := by
  rw [parseText_eq_lexemes]
  exact (parse_run _).legible spelled_of_mem_lexemes

end ScriptReader
