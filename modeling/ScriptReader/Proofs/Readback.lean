import ScriptReader.Proofs.Beginnings
import ScriptReader.Proofs.Depth

/-! # Reading a rendering back

The text of a tree is scanned as the rendering of the tree: a space or a symbol stands behind every
word and every number, and nothing that begins an expression is drawn into the operator in front.
So a program that was read from a text is read back from its own text, unless its parentheses make
it nest too deep.
-/

namespace ScriptReader

open List (forall_mem_cons forall_mem_append)

theorem Stmt.free_blockText (statements : List Stmt) {rest : List Char} (free : Free rest) :
    Free ((Stmt.blockText statements).toList ++ rest) := by
  cases statements with
  | nil => exact free
  | cons first others =>
    simp only [Stmt.blockText, String.toList_append, String.reduceToList, List.cons_append]
    exact free_space _

/-- Texts with a separator between them are read one behind the other. -/
theorem spells_intercalate {separator : String} {between : List Token}
    (apart : ∀ rest, Free (separator.toList ++ rest) ∧
      lexemes (separator.toList ++ rest) = between ++ lexemes rest)
    {texts : List String} {renderings : List (List Token)}
    (each : List.Forall₂ Spells texts renderings) :
    Spells (separator.intercalate texts) (between.intercalate renderings) := by
  intro rest free
  rw [String.toList_intercalate]
  induction each with
  | nil => rfl
  | @cons text tokens texts renderings spells each ih =>
    cases each with
    | nil => simpa using spells free
    | cons =>
      rw [List.map_cons, List.map_cons, List.intercalate_cons_cons, List.intercalate_cons_cons,
        ← List.map_cons, List.append_assoc, List.append_assoc, spells (apart _).1, (apart _).2, ih,
        List.append_assoc, List.append_assoc]

/-- Names and arguments have a comma and a space between them. -/
theorem spells_commas {texts : List String} {renderings : List (List Token)}
    (each : List.Forall₂ Spells texts renderings) :
    Spells (", ".intercalate texts) ([.comma].intercalate renderings) := by
  refine spells_intercalate (fun rest => ?_) each
  simp only [String.reduceToList, List.cons_append, List.nil_append]
  exact ⟨free_comma _, by rw [lexemes_comma, lexemes_space]⟩

theorem Name.spells_texts : ∀ names : List Name, (∀ node ∈ names.map Node.parameter, node.Legible) →
    List.Forall₂ Spells (names.map Name.text) (names.map fun name => [name.token])
  | [], _ => .nil
  | first :: rest, legible => by
    obtain ⟨⟨spelled, -, same⟩, legible⟩ := forall_mem_cons.mp legible
    exact .cons (same ▸ spelled.spells) (Name.spells_texts rest legible)

mutual

/-- The text of an expression is read as its rendering. -/
theorem Expr.spells_text : ∀ value : Expr, (∀ node ∈ value.nodes, node.Readable) →
    Spells value.text value.rendering
  | .identifier name, readable => by
    obtain ⟨⟨spelled, -, same⟩, -⟩ := readable _ (.head _)
    rw [Expr.text, same]
    exact spelled.spells
  | .integer token value, readable => by
    have legible : 0 ≤ value ∧ Numeral.Fits value := (readable _ (.head _)).1
    exact spells_numeral legible.1
  | .boolean token value, readable => by
    obtain ⟨⟨spelled, truth⟩, -⟩ := readable _ (.head _)
    have same : token.literal = if value then "true" else "false" := by
      rcases truth with ⟨kind, rfl⟩ | ⟨kind, rfl⟩
      · exact congrArg Token.literal (spelled.eq_of_kind kind rfl)
      · exact congrArg Token.literal (spelled.eq_of_kind kind rfl)
    rw [Expr.text, ← same]
    exact spelled.spells
  | .unary token operator operand, readable => by
    obtain ⟨⟨⟨spelled, operates, rfl⟩, -⟩, inner⟩ := forall_mem_cons.mp readable
    have spells := operand.spells_text inner
    have apart (rest : List Char) := operand.head?_text
      (fun node among => (inner node among).1) (free_closeParen rest)
    intro rest free
    simp only [Expr.text, Expr.rendering, String.toList_append, String.reduceToList,
      List.append_assoc, List.cons_append, List.nil_append]
    rw [lexemes_openParen, spelled.lexemes_operator operates (apart _), spells (free_closeParen _),
      lexemes_closeParen]
  | .binary token operator left right, readable => by
    obtain ⟨⟨⟨spelled, -, rfl⟩, -⟩, inner⟩ := forall_mem_cons.mp readable
    obtain ⟨inner, inner'⟩ := forall_mem_append.mp inner
    intro rest free
    simp only [Expr.text, Expr.rendering, String.toList_append, String.reduceToList,
      List.append_assoc, List.cons_append, List.nil_append]
    rw [lexemes_openParen, left.spells_text inner (free_space _), lexemes_space,
      spelled.spells (free_space _), lexemes_space, right.spells_text inner' (free_closeParen _),
      lexemes_closeParen, List.singleton_append]
  | .conditional token condition consequence alternative, readable => by
    obtain ⟨⟨⟨spelled, chooses⟩, -⟩, readable⟩ := forall_mem_cons.mp readable
    obtain ⟨readable, readable''⟩ := forall_mem_append.mp readable
    obtain ⟨readable, readable'⟩ := forall_mem_append.mp readable
    have word : token = .ifWord := spelled.eq_of_kind chooses rfl
    intro rest free
    simp only [Expr.text, Expr.rendering, String.toList_append, String.reduceToList,
      List.append_assoc, List.cons_append, List.nil_append]
    rw [lexemes_if, ← word, lexemes_openParen, condition.spells_text readable (free_closeParen _),
      lexemes_closeParen, lexemes_space, consequence.lexemes_text readable',
      Block.spells_alternativeText alternative readable'' free]
  | .function token parameters body, readable => by
    obtain ⟨⟨⟨spelled, -⟩, -⟩, readable⟩ := forall_mem_cons.mp readable
    obtain ⟨readable, readable'⟩ := forall_mem_append.mp readable
    have names := spells_commas (Name.spells_texts parameters fun node among =>
      (readable node among).1)
    intro rest free
    simp only [Expr.text, Expr.rendering, String.toList_append, String.reduceToList,
      List.append_assoc, List.cons_append, List.nil_append]
    rw [spelled.spells (free_openParen _), lexemes_openParen, names (free_closeParen _),
      lexemes_closeParen, lexemes_space, body.lexemes_text readable', List.singleton_append]
  | .call token callee arguments, readable => by
    obtain ⟨⟨⟨spelled, opens⟩, -⟩, readable⟩ := forall_mem_cons.mp readable
    obtain ⟨readable, readable'⟩ := forall_mem_append.mp readable
    have given := spells_commas (Expr.spells_texts arguments readable')
    have opening : token = .openParen := spelled.eq_of_kind opens rfl
    intro rest free
    simp only [Expr.text, Expr.rendering, String.toList_append, String.reduceToList,
      List.append_assoc, List.cons_append, List.nil_append]
    rw [callee.spells_text readable (free_openParen _), lexemes_openParen, ← opening,
      given (free_closeParen _), lexemes_closeParen]

theorem Expr.spells_texts : ∀ values : List Expr,
    (∀ node ∈ Expr.listNodes values, node.Readable) →
      List.Forall₂ Spells (Expr.texts values) (Expr.renderings values)
  | [], _ => .nil
  | first :: rest, readable =>
    have ⟨readable, readable'⟩ := forall_mem_append.mp readable
    .cons (first.spells_text readable) (Expr.spells_texts rest readable')

theorem Stmt.spells_text : ∀ statement : Stmt, (∀ node ∈ statement.nodes, node.Readable) →
    Spells statement.text statement.rendering
  | .declaration token name value, readable => by
    obtain ⟨⟨⟨spelled, -⟩, -⟩, readable⟩ := forall_mem_cons.mp readable
    obtain ⟨⟨⟨spelled', -, same⟩, -⟩, readable⟩ := forall_mem_cons.mp readable
    intro rest free
    simp only [Stmt.text, Stmt.rendering, String.toList_append, String.reduceToList,
      List.append_assoc, List.cons_append, List.nil_append, same]
    rw [spelled.spells (free_space _), lexemes_space, spelled'.spells (free_space _), lexemes_space,
      lexemes_assign, value.spells_text readable (free_semicolon _), lexemes_semicolon,
      List.singleton_append, List.singleton_append]
  | .ret token value, readable => by
    obtain ⟨⟨⟨spelled, -⟩, -⟩, readable⟩ := forall_mem_cons.mp readable
    intro rest free
    simp only [Stmt.text, Stmt.rendering, String.toList_append, String.reduceToList,
      List.append_assoc, List.cons_append, List.nil_append]
    rw [spelled.spells (free_space _), lexemes_space, value.spells_text readable (free_semicolon _),
      lexemes_semicolon, List.singleton_append]
  | .expression _ value, readable => value.spells_text (forall_mem_cons.mp readable).2

theorem Stmt.spells_blockText : ∀ statements : List Stmt,
    (∀ node ∈ Stmt.listNodes statements, node.Readable) →
      Spells (Stmt.blockText statements) (Stmt.listRendering statements)
  | [], _ => fun _ _ => rfl
  | first :: rest, readable => by
    obtain ⟨readable, readable'⟩ := forall_mem_append.mp readable
    intro behind free
    simp only [Stmt.blockText, Stmt.listRendering, String.toList_append, String.reduceToList,
      List.append_assoc, List.cons_append, List.nil_append]
    rw [lexemes_space, first.spells_text readable (Stmt.free_blockText rest free),
      Stmt.spells_blockText rest readable' free]

theorem Block.lexemes_text : ∀ block : Block, (∀ node ∈ block.nodes, node.Readable) →
    ∀ rest, lexemes (block.text.toList ++ rest) = block.rendering ++ lexemes rest
  | .mk token body, readable => by
    obtain ⟨⟨⟨spelled, opens⟩, -⟩, readable⟩ := forall_mem_cons.mp readable
    have opening : token = .openCurly := spelled.eq_of_kind opens rfl
    intro rest
    simp only [Block.text, Block.rendering, String.toList_append, String.reduceToList,
      List.append_assoc, List.cons_append, List.nil_append]
    rw [lexemes_openCurly, ← opening, Stmt.spells_blockText body readable (free_space _),
      lexemes_space, lexemes_closeCurly]

theorem Block.spells_alternativeText : ∀ block : Option Block,
    (∀ node ∈ Block.alternativeNodes block, node.Readable) →
      Spells (Block.alternativeText block) (Block.alternativeRendering block)
  | none, _ => fun _ _ => rfl
  | some block, readable => by
    intro rest free
    simp only [Block.alternativeText, Block.alternativeRendering, String.toList_append,
      String.reduceToList, List.cons_append, List.nil_append]
    rw [lexemes_space, lexemes_else, block.lexemes_text readable]

end

theorem Stmt.spells_texts : ∀ statements : List Stmt,
    (∀ node ∈ Stmt.listNodes statements, node.Readable) →
      List.Forall₂ Spells (statements.map Stmt.text) (statements.map Stmt.rendering)
  | [], _ => .nil
  | first :: rest, readable =>
    have ⟨readable, readable'⟩ := forall_mem_append.mp readable
    .cons (first.spells_text readable) (Stmt.spells_texts rest readable')

theorem Stmt.listRendering_eq : ∀ statements : List Stmt,
    Stmt.listRendering statements = [].intercalate (statements.map Stmt.rendering)
  | [] => rfl
  | [only] => by simp [Stmt.listRendering]
  | first :: second :: rest => by
    rw [Stmt.listRendering, Stmt.listRendering_eq (second :: rest), List.map_cons, List.map_cons,
      List.map_cons, List.intercalate_cons_cons, List.append_nil]

/-- The text of a program is read as the rendering of its statements. -/
theorem Program.lexemes_text {program : Program}
    (readable : ∀ node ∈ Stmt.listNodes program.statements, node.Readable) :
    lexemes program.text.toList = Stmt.listRendering program.statements := by
  have lines (rest : List Char) : Free ("\n".toList ++ rest) ∧
      lexemes ("\n".toList ++ rest) = [] ++ lexemes rest := by
    simp only [String.reduceToList, List.cons_append, List.nil_append]
    exact ⟨free_cons rest (by decide), lexemes_blank rfl rest⟩
  have read := spells_intercalate lines (Stmt.spells_texts program.statements readable) free_nil
  rwa [List.append_nil, lexemes_nil, List.append_nil, ← Stmt.listRendering_eq] at read

theorem Stmt.listRenderedLevel_le_iff {most : Nat} {statements : List Stmt} :
    Stmt.listRenderedLevel statements ≤ most ↔
      ∀ statement ∈ statements, statement.renderedLevel ≤ most := by
  induction statements with
  | nil => exact iff_of_true (Nat.zero_le most) (List.forall_mem_nil _)
  | cons first rest ih => rw [Stmt.listRenderedLevel, Nat.max_le, ih, forall_mem_cons]

theorem parseText_readable (source : String)
    (bracketed : ∀ node ∈ (parseText source).1.nodes, node.Bracketed) :
    ∀ node ∈ Stmt.listNodes (parseText source).1.statements, node.Readable := by
  intro node among
  exact ⟨parseText_legible source node among, bracketed node (.tail _ among)⟩

/-- The text of a program that was read from a text, where every expression statement ends in a
block, is read without a diagnostic if and only if no statement of its rendering nests too deep.
Then it is read as the same program but for the stored tokens, and the text of this program is the
same. -/
theorem parseText_text (source : String) {program : Program}
    (read : (parseText source).1 = program) (bracketed : ∀ node ∈ program.nodes, node.Bracketed) :
    ((parseText program.text).2 = [] ↔
      ∀ statement ∈ program.statements, statement.renderedLevel ≤ Parser.standardLimit) ∧
    ((parseText program.text).2 = [] →
      (parseText program.text).1.erased = program.erased ∧
      (parseText program.text).1.text = program.text) := by
  subst read
  have readable := parseText_readable source bracketed
  have written := Stmt.list_written_rendering _ readable
  have again : parseText (parseText source).1.text =
      parse (Stmt.listRendering (parseText source).1.statements) := by
    rw [parseText_eq_lexemes, Program.lexemes_text readable]
  have clean : (parse (Stmt.listRendering (parseText source).1.statements)).2 = [] ↔
      _ ≤ Parser.standardLimit := written.diagnostics_eq_nil_iff
  rw [again, ← Stmt.listRenderedLevel_le_iff]
  refine ⟨clean, fun clear => ?_⟩
  rw [written.parse (clean.mp clear)]
  exact ⟨Program.erased_retokened Node.renewed _, Program.text_renewed _⟩

/-- The numeral loses its zeros, and the operators gain parentheses. -/
theorem parseText_text_conditional :
    (parseText "var x = 007; if (x < 1) \x7b return -x; \x7d").1.text =
      "var x = 7;\nif ((x < 1)) \x7b return (-x); \x7d" ∧
    (parseText "var x = 7;\nif ((x < 1)) \x7b return (-x); \x7d").2 = [] ∧
    (parseText "var x = 7;\nif ((x < 1)) \x7b return (-x); \x7d").1.erased =
      (parseText "var x = 007; if (x < 1) \x7b return -x; \x7d").1.erased := by
  have text : (parseText "var x = 007; if (x < 1) \x7b return -x; \x7d").1.text =
      "var x = 7;\nif ((x < 1)) \x7b return (-x); \x7d" := by
    decide +kernel
  have back := parseText_text "var x = 007; if (x < 1) \x7b return -x; \x7d" rfl
    (by decide +kernel)
  rw [text] at back
  have clean := back.1.mpr (by decide +kernel)
  exact ⟨text, clean, (back.2 clean).1⟩

end ScriptReader
