import ScriptReader.Proofs.Delimiting

/-! # No two trees have one text

The text of a tree that was read from a text ends by itself, so the tree can be told from its text,
but for the stored tokens.
-/

namespace ScriptReader

open List (forall_mem_nil forall_mem_cons forall_mem_append)

/-- A block that is chosen otherwise is always drawn into the conditional in front. -/
theorem Block.not_unjoined_alternative (block : Block) (rest : List Char) :
    ¬ Unjoined ((Block.alternativeText (some block)).toList ++ rest) := by
  intro unjoined
  apply unjoined.final
  simp only [Block.alternativeText, String.toList_append, String.reduceToList, List.cons_append,
    List.nil_append]
  rw [lexemes_space, lexemes_else]
  rfl

theorem Block.delimits_alternative {alternative : Option Block}
    (each : ∀ block ∈ alternative, Block.code.Delimits block) :
    Block.alternativeCode.Delimits alternative := by
  intro other rest rest' legible' ends ends' same
  cases alternative with
  | none =>
    cases other with
    | none => exact ⟨rfl, same⟩
    | some block =>
      have same : rest = (Block.alternativeText (some block)).toList ++ rest' := same
      exact (block.not_unjoined_alternative rest' (same ▸ ends)).elim
  | some block =>
    cases other with
    | none =>
      have same : (Block.alternativeText (some block)).toList ++ rest = rest' := same
      exact (block.not_unjoined_alternative rest (same ▸ ends')).elim
    | some block' =>
      have split (block : Block) (rest : List Char) : Block.alternativeCode.text (some block) ++
          rest = " else ".toList ++ (block.text.toList ++ rest) := by
        simp [Block.alternativeCode, Block.alternativeText]
      rw [split, split] at same
      obtain ⟨kept, rfl⟩ := each block rfl legible' trivial trivial (List.append_cancel_left same)
      exact ⟨congrArg some kept, rfl⟩

theorem Stmt.bodyCode_text (statements : List Stmt) :
    Stmt.bodyCode.text statements = (Stmt.blockText statements).toList ++ [' ', '\x7d'] := by
  induction statements with
  | nil => rfl
  | cons first rest ih =>
    have more : Stmt.bodyCode.text (first :: rest) ++ [] =
        [' '] ++ (first.text.toList ++ (Stmt.bodyCode.text rest ++ [])) := Code.led_cons ..
    rw [List.append_nil, List.append_nil, ih] at more
    rw [more]
    simp [Stmt.blockText]

theorem Stmt.listRetokened_eq_map (choose : Node → Token) (statements : List Stmt) :
    Stmt.listRetokened choose statements = statements.map (Stmt.retokened choose) := by
  induction statements with
  | nil => rfl
  | cons first rest ih => rw [Stmt.listRetokened, List.map_cons, ih]

theorem Stmt.fits_list {statements : List Stmt}
    (legible : ∀ node ∈ Stmt.listNodes statements, node.Legible) :
    ∀ statement ∈ statements, Stmt.code.fits statement := by
  induction statements with
  | nil => exact forall_mem_nil _
  | cons first rest ih =>
    obtain ⟨legible, legible'⟩ := forall_mem_append.mp legible
    exact forall_mem_cons.mpr ⟨legible, ih legible'⟩

theorem Block.delimits_mk {token : Token} {body : List Stmt}
    (legible : Block.code.fits (.mk token body))
    (each : ∀ statement ∈ body, Stmt.code.Delimits statement) :
    Block.code.Delimits (.mk token body) := by
  rintro ⟨token', body'⟩ rest rest' legible' - - same
  have split (token : Token) (body : List Stmt) (rest : List Char) :
      Block.code.text (.mk token body) ++ rest =
        '\x7b' :: (Stmt.bodyCode.text body ++ rest) := by
    rw [Stmt.bodyCode_text]
    simp [Block.code, Block.text]
  rw [split, split] at same
  have fits := Stmt.fits_list (forall_mem_cons.mp legible).2
  have fits' := Stmt.fits_list (forall_mem_cons.mp legible').2
  have delimits : Stmt.bodyCode.Delimits body := Stmt.body_parts.delimits_led fits each
  obtain ⟨kept, rfl⟩ := delimits fits' trivial trivial (List.tail_eq_of_cons_eq same)
  have kept : body.map (Stmt.retokened Node.erased) = body'.map (Stmt.retokened Node.erased) := kept
  rw [← Stmt.listRetokened_eq_map, ← Stmt.listRetokened_eq_map] at kept
  exact ⟨congrArg (Block.mk .endOfInput) kept, rfl⟩

namespace Stmt

variable {token : Token} {name : Name} {value : Expr}

theorem rule_eq {statement other : Stmt} (legible : code.fits statement)
    (legible' : code.fits other) {rest rest' : List Char} (free : Free rest) (free' : Free rest')
    (same : statement.text.toList ++ rest = other.text.toList ++ rest') :
    statement.rule? = other.rule? := by
  have begins := (front_text legible free).2
  rw [same, (front_text legible' free').2] at begins
  exact begins.symm

theorem text_declaration (legible : code.fits (.declaration token name value))
    (rest : List Char) : (Stmt.declaration token name value).text.toList ++ rest =
      "var ".toList ++ (name.text.toList ++
        ' ' :: ("= ".toList ++ (value.text.toList ++ ';' :: rest))) := by
  obtain ⟨spelled, declares⟩ := legible _ (.head _)
  obtain rfl := spelled.eq_of_kind declares rfl
  simp [text]

theorem delimits_declaration (legible : code.fits (.declaration token name value))
    (given : Expr.code.Delimits value) : code.Delimits (.declaration token name value) := by
  intro other rest rest' legible' ends ends' same
  have rule := rule_eq legible legible' ends.free ends'.free same
  cases other with
  | declaration token' name' value' =>
    have same := (text_declaration legible _).symm.trans (same.trans (text_declaration legible' _))
    obtain ⟨-, fits⟩ := forall_mem_cons.mp legible
    obtain ⟨named, -⟩ := forall_mem_cons.mp fits
    obtain ⟨-, fits'⟩ := forall_mem_cons.mp legible'
    obtain ⟨named', fits'⟩ := forall_mem_cons.mp fits'
    obtain ⟨kept, behind⟩ := Name.delimits named named' (free_space _) (free_space _)
      (List.append_cancel_left same)
    obtain ⟨kept', behind⟩ := given fits' (detached_semicolon _) (detached_semicolon _)
      (List.append_cancel_left (List.tail_eq_of_cons_eq behind))
    exact ⟨congrArg₂ (Stmt.declaration .endOfInput) kept kept', List.tail_eq_of_cons_eq behind⟩
  | _ => cases rule

theorem text_ret (legible : code.fits (.ret token value)) (rest : List Char) :
    (Stmt.ret token value).text.toList ++ rest =
      "return ".toList ++ (value.text.toList ++ ';' :: rest) := by
  obtain ⟨spelled, returns⟩ := legible _ (.head _)
  obtain rfl := spelled.eq_of_kind returns rfl
  simp [text]

theorem delimits_ret (legible : code.fits (.ret token value))
    (given : Expr.code.Delimits value) : code.Delimits (.ret token value) := by
  intro other rest rest' legible' ends ends' same
  have rule := rule_eq legible legible' ends.free ends'.free same
  cases other with
  | ret token' value' =>
    have same := (text_ret legible _).symm.trans (same.trans (text_ret legible' _))
    obtain ⟨-, fits'⟩ := forall_mem_cons.mp legible'
    obtain ⟨kept, behind⟩ := given fits' (detached_semicolon _) (detached_semicolon _)
      (List.append_cancel_left same)
    exact ⟨congrArg (Stmt.ret .endOfInput) kept, List.tail_eq_of_cons_eq behind⟩
  | _ => cases rule

theorem delimits_expression (legible : code.fits (.expression token value))
    (given : Expr.code.Delimits value) : code.Delimits (.expression token value) := by
  intro other rest rest' legible' ends ends' same
  have rule := rule_eq legible legible' ends.free ends'.free same
  cases other with
  | expression token' value' =>
    obtain ⟨kept, rfl⟩ := given (forall_mem_cons.mp legible').2 ends ends' same
    exact ⟨congrArg (Stmt.expression .endOfInput) kept, rfl⟩
  | _ => cases rule

end Stmt

mutual

theorem Expr.separable : ∀ value : Expr, Expr.code.fits value → value.Separable
  | .identifier _, legible => ⟨Expr.delimits_identifier legible, forall_mem_nil _⟩
  | .integer .., legible => ⟨Expr.delimits_integer legible, forall_mem_nil _⟩
  | .boolean .., legible => ⟨Expr.delimits_boolean legible, forall_mem_nil _⟩
  | .unary _ _ operand, legible => by
    obtain ⟨-, fits⟩ := forall_mem_cons.mp legible
    have inner := (operand.separable fits).delimits fits
    exact ⟨Expr.delimits_unary legible inner, forall_mem_nil _⟩
  | .binary _ _ left right, legible => by
    obtain ⟨-, fits⟩ := forall_mem_cons.mp legible
    obtain ⟨fits, fits'⟩ := forall_mem_append.mp fits
    have inner := (left.separable fits).delimits fits
    have inner' := (right.separable fits').delimits fits'
    exact ⟨Expr.delimits_binary legible inner inner', forall_mem_nil _⟩
  | .conditional _ condition consequence alternative, legible => by
    obtain ⟨-, fits⟩ := forall_mem_cons.mp legible
    obtain ⟨fits, fits''⟩ := forall_mem_append.mp fits
    obtain ⟨fits, fits'⟩ := forall_mem_append.mp fits
    have tested := (condition.separable fits).delimits fits
    have chosen := consequence.delimits fits'
    have left := Block.alternative_delimits alternative fits''
    exact ⟨Expr.delimits_conditional legible tested chosen left, forall_mem_nil _⟩
  | .function _ parameters body, legible => by
    obtain ⟨-, fits⟩ := forall_mem_cons.mp legible
    obtain ⟨-, fits⟩ := forall_mem_append.mp fits
    exact ⟨Expr.delimits_function legible (body.delimits fits), forall_mem_nil _⟩
  | .call _ callee arguments, legible => by
    obtain ⟨-, fits⟩ := forall_mem_cons.mp legible
    obtain ⟨fits, fits'⟩ := forall_mem_append.mp fits
    obtain ⟨first, each⟩ := callee.separable fits
    have given := Expr.list_delimits arguments fits'
    exact ⟨first, forall_mem_append.mpr ⟨each, List.forall_mem_singleton.mpr given⟩⟩

theorem Expr.list_delimits : ∀ values : List Expr, (∀ node ∈ Expr.listNodes values, node.Legible) →
    ∀ value ∈ values, Expr.code.Delimits value
  | [], _ => forall_mem_nil _
  | first :: rest, legible => by
    obtain ⟨fits, fits'⟩ := forall_mem_append.mp legible
    have delimits := (first.separable fits).delimits fits
    exact forall_mem_cons.mpr ⟨delimits, Expr.list_delimits rest fits'⟩

theorem Stmt.delimits : ∀ statement : Stmt, Stmt.code.fits statement →
    Stmt.code.Delimits statement
  | .declaration _ name value, legible => by
    obtain ⟨-, fits⟩ := forall_mem_cons.mp legible
    obtain ⟨-, fits⟩ := forall_mem_cons.mp fits
    exact Stmt.delimits_declaration legible ((value.separable fits).delimits fits)
  | .ret _ value, legible => by
    obtain ⟨-, fits⟩ := forall_mem_cons.mp legible
    exact Stmt.delimits_ret legible ((value.separable fits).delimits fits)
  | .expression _ value, legible => by
    obtain ⟨-, fits⟩ := forall_mem_cons.mp legible
    exact Stmt.delimits_expression legible ((value.separable fits).delimits fits)

theorem Stmt.list_delimits : ∀ statements : List Stmt,
    (∀ node ∈ Stmt.listNodes statements, node.Legible) →
      ∀ statement ∈ statements, Stmt.code.Delimits statement
  | [], _ => forall_mem_nil _
  | first :: rest, legible => by
    obtain ⟨fits, fits'⟩ := forall_mem_append.mp legible
    exact forall_mem_cons.mpr ⟨first.delimits fits, Stmt.list_delimits rest fits'⟩

theorem Block.delimits : ∀ block : Block, Block.code.fits block → Block.code.Delimits block
  | .mk _ body, legible => by
    obtain ⟨-, fits⟩ := forall_mem_cons.mp legible
    exact Block.delimits_mk legible (Stmt.list_delimits body fits)

theorem Block.alternative_delimits : ∀ alternative : Option Block,
    Block.alternativeCode.fits alternative → Block.alternativeCode.Delimits alternative
  | none, _ => Block.delimits_alternative nofun
  | some block, legible =>
    Block.delimits_alternative fun _ among => Option.some.inj among ▸ block.delimits legible

end

/-- Statements on lines of their own can be told from the text. -/
theorem Stmt.delimits_lines {statements : List Stmt}
    (legible : ∀ node ∈ Stmt.listNodes statements, node.Legible) :
    Stmt.linesCode.Delimits statements := by
  refine Stmt.lines_parts.delimits_listed (fun {statement rest rest'} fits ends empty same => ?_)
    (Stmt.fits_list legible) (Stmt.list_delimits statements legible)
  have same : statement.text.toList ++ rest = rest' := same
  have begins := (Stmt.front_text fits ends.free).1
  rw [same, empty, lexemes_nil] at begins
  exact begins.ne.2.2 rfl

theorem Program.text_eq (program : Program) :
    program.text.toList = Stmt.linesCode.text program.statements := by
  rw [Program.text, String.toList_intercalate, List.map_map]
  exact (List.append_nil _).symm

theorem Program.statements_erased (program : Program) :
    program.erased.statements = Stmt.linesCode.kept program.statements :=
  Stmt.listRetokened_eq_map Node.erased program.statements

/-- Programs that were read from two texts, with diagnostics or without, have the same text only if
they are the same but for the stored tokens. -/
theorem parseText_text_injective (source other : String)
    (same : (parseText source).1.text = (parseText other).1.text) :
    (parseText source).1.erased = (parseText other).1.erased := by
  have delimits := Stmt.delimits_lines (parseText_legible source)
  have same := congrArg String.toList same
  rw [Program.text_eq, Program.text_eq] at same
  have kept := (delimits (Stmt.fits_list (parseText_legible other)) rfl rfl
    (congrArg (· ++ []) same)).1
  rw [← Program.statements_erased, ← Program.statements_erased] at kept
  exact congrArg Program.mk kept

/-- Parentheses leave no trace in the tree, and neither does a statement that cannot be read. -/
theorem parseText_text_injective_parentheses :
    (parseText "a; -b;").1.text = (parseText "(a); + 1; -(b);").1.text ∧
    (parseText "a; -b;").1.erased = (parseText "(a); + 1; -(b);").1.erased := by
  have same : (parseText "a; -b;").1.text = (parseText "(a); + 1; -(b);").1.text := by decide +kernel
  exact ⟨same, parseText_text_injective _ _ same⟩

end ScriptReader
