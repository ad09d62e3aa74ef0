import ScriptReader.Proofs.Rendering

/-! # How texts begin

Punctuation and blanks are never drawn into the token in front of them, so a text is read in the
same way whatever stands behind them. The first token of a text tells which node it is the text of,
and also whether the text may stand behind an expression: no opening parenthesis does, as it would
open a call, and no `else`, as it would belong to a conditional.
-/

namespace ScriptReader

open List (forall_mem_cons forall_mem_append)

def Token.ifWord : Token := ⟨.ifWord, "if"⟩

/-- Nothing at the beginning would be drawn into a token in front. -/
def Free (rest : List Char) : Prop := ∀ next ∈ rest.head?, ∀ kind : Kind, kind.joins next = false

/-- The text is read as the tokens, whatever follows without being drawn in. -/
def Spells (text : String) (tokens : List Token) : Prop :=
  ∀ ⦃rest : List Char⦄, Free rest → lexemes (text.toList ++ rest) = tokens ++ lexemes rest

section Punctuation

variable (rest : List Char)

theorem free_nil : Free [] := nofun

theorem free_cons {c : Char}
    (apart : Alphabet.isWordPart c = false ∧ c.isDigit = false ∧ (c == '=') = false) :
    Free (c :: rest) := by
  rintro next ⟨⟩ kind
  obtain ⟨word, digit, equals⟩ := apart
  cases kind <;> first | rfl | exact word | exact digit | exact equals

theorem free_space : Free (' ' :: rest) := free_cons rest (by decide)

theorem free_comma : Free (',' :: rest) := free_cons rest (by decide)

theorem free_semicolon : Free (';' :: rest) := free_cons rest (by decide)

theorem free_openParen : Free ('(' :: rest) := free_cons rest (by decide)

theorem free_closeParen : Free (')' :: rest) := free_cons rest (by decide)

theorem lexemes_space : lexemes (' ' :: rest) = lexemes rest := lexemes_blank rfl rest

theorem lexemes_assign : lexemes ('=' :: ' ' :: rest) = .assign :: lexemes rest := by
  rw [← lexemes_space rest]
  exact lexemes_symbol rfl rfl rfl (.inr nofun)

theorem lexemes_comma : lexemes (',' :: rest) = .comma :: lexemes rest :=
  lexemes_symbol rfl rfl rfl (.inl rfl)

theorem lexemes_semicolon : lexemes (';' :: rest) = .semicolon :: lexemes rest :=
  lexemes_symbol rfl rfl rfl (.inl rfl)

theorem lexemes_openParen : lexemes ('(' :: rest) = .openParen :: lexemes rest :=
  lexemes_symbol rfl rfl rfl (.inl rfl)

theorem lexemes_closeParen : lexemes (')' :: rest) = .closeParen :: lexemes rest :=
  lexemes_symbol rfl rfl rfl (.inl rfl)

theorem lexemes_openCurly : lexemes ('\x7b' :: rest) = .openCurly :: lexemes rest :=
  lexemes_symbol rfl rfl rfl (.inl rfl)

theorem lexemes_closeCurly : lexemes ('\x7d' :: rest) = .closeCurly :: lexemes rest :=
  lexemes_symbol rfl rfl rfl (.inl rfl)

theorem lexemes_else :
    lexemes ('e' :: 'l' :: 's' :: 'e' :: ' ' :: rest) = .elseWord :: lexemes rest := by
  rw [← lexemes_space rest]
  exact @lexemes_word (' ' :: rest) ['e', 'l', 's', 'e'] nofun (List.all_eq_true.mp rfl)
    (by rintro _ ⟨⟩; rfl)

theorem lexemes_if : lexemes ('i' :: 'f' :: ' ' :: rest) = .ifWord :: lexemes rest := by
  rw [← lexemes_space rest]
  exact @lexemes_word (' ' :: rest) ['i', 'f'] nofun (List.all_eq_true.mp rfl)
    (by rintro _ ⟨⟩; rfl)

/-- What begins with a `=` is read as one of the two tokens that do. -/
theorem front_lexemes_equals :
    Rules.standard.operand (front (lexemes ('=' :: rest))).kind = none := by
  by_cases pair : rest.head? = some '='
  · obtain ⟨behind, rfl⟩ := List.head?_eq_some_iff.mp pair
    rw [lexemes_pair (show Kind.withEquals? '=' = some .equals from rfl)]
    rfl
  · rw [lexemes_symbol rfl rfl rfl (.inr pair)]
    rfl

end Punctuation

theorem Token.Spelled.spells {token : Token} (spelled : token.Spelled) :
    Spells token.literal [token] :=
  fun _ free => spelled.lexemes_append fun next among => free next among _

/-- A token whose kind is spelled in one way only. -/
theorem Token.Spelled.eq_of_kind {token : Token} (spelled : token.Spelled) {kind : Kind}
    {literal : String} (same : token.kind = kind) (only : kind.spelling? = some literal) :
    token = ⟨kind, literal⟩ := by
  have spelling := spelled.literal_eq literal (same ▸ only)
  obtain ⟨_, _⟩ := token
  exact congrArg₂ Token.mk same spelling

/-- Where two tokens end can be told from the characters if both are read as they are. -/
theorem Token.eq_of_read {token other : Token} {rest rest' : List Char}
    (read : lexemes (token.literal.toList ++ rest) = token :: lexemes rest)
    (read' : lexemes (other.literal.toList ++ rest') = other :: lexemes rest')
    (same : token.literal.toList ++ rest = other.literal.toList ++ rest') :
    token = other ∧ rest = rest' := by
  rw [same, read', List.cons.injEq] at read
  obtain ⟨rfl, -⟩ := read
  exact ⟨rfl, List.append_cancel_left same⟩

theorem Token.Spelled.cut {token other : Token} (spelled : token.Spelled)
    (spelled' : other.Spelled) {rest rest' : List Char} (free : Free rest) (free' : Free rest')
    (same : token.literal.toList ++ rest = other.literal.toList ++ rest') :
    token = other ∧ rest = rest' :=
  Token.eq_of_read (spelled.spells free) (spelled'.spells free') same

theorem Token.spelled_numeral {value : Int} (natural : 0 ≤ value) :
    (Token.numeral value).Spelled := by
  obtain ⟨digits, nonempty, parts, written, -⟩ := Numeral.text_eq_ofList natural
  rw [Token.numeral, written]
  exact .number nonempty parts

theorem spells_numeral {value : Int} (natural : 0 ≤ value) :
    Spells (Numeral.text value) [.numeral value] :=
  (Token.spelled_numeral natural).spells

def Token.truth : Bool → Token
  | true => ⟨.trueWord, "true"⟩
  | false => ⟨.falseWord, "false"⟩

theorem Token.spelled_truth : ∀ value : Bool, (Token.truth value).Spelled
  | true => @Spelled.word ['t', 'r', 'u', 'e'] nofun (List.all_eq_true.mp rfl)
  | false => @Spelled.word ['f', 'a', 'l', 's', 'e'] nofun (List.all_eq_true.mp rfl)

theorem Expr.text_boolean (token : Token) : ∀ value : Bool,
    (Expr.boolean token value).text = (Token.truth value).literal
  | true => rfl
  | false => rfl

theorem Token.Spelled.lexemes_operator {token : Token} (spelled : token.Spelled)
    (operates : token.kind = .not ∨ token.kind = .minus) {rest : List Char}
    (apart : rest.head? ≠ some '=') :
    lexemes (token.literal.toList ++ rest) = token :: lexemes rest := by
  refine spelled.lexemes_append fun next among => ?_
  rcases operates with kind | kind
  · rw [kind]
    exact beq_eq_false_iff_ne.mpr fun equals => apart (equals ▸ among)
  · rw [kind]
    rfl

/-- How the text of an expression begins. -/
def Expr.opening : Expr → OperandRule
  | .identifier _ => .identifier
  | .integer .. => .integer
  | .boolean .. => .boolean
  | .unary .. => .grouping
  | .binary .. => .grouping
  | .conditional .. => .conditional
  | .function .. => .function
  | .call _ callee _ => callee.opening

/-- An operator in front of an operand stands in parentheses. -/
theorem Expr.opening_ne_unary (value : Expr) : value.opening ≠ .unary := by
  fun_induction Expr.opening value with
  | case8 token callee arguments ih => exact ih
  | _ => exact nofun

/-- The first token of an expression is of a kind that begins it. -/
theorem Expr.operand_front_text : ∀ value : Expr, (∀ node ∈ value.nodes, node.Legible) →
    ∀ {rest : List Char}, Free rest →
      Rules.standard.operand (front (lexemes (value.text.toList ++ rest))).kind =
        some value.opening
  | .identifier name, legible, rest, free => by
    obtain ⟨spelled, named, same⟩ := legible _ (.head _)
    rw [Expr.text, same, spelled.spells free, List.singleton_append, front_cons, named]
    rfl
  | .integer _ value, legible, rest, free => by
    have natural : 0 ≤ value := (legible _ (.head _)).1
    rw [Expr.text, spells_numeral natural free]
    rfl
  | .boolean token value, _, rest, free => by
    rw [Expr.text_boolean, (Token.spelled_truth value).spells free]
    cases value <;> rfl
  | .unary _ operator operand, _, rest, _ => by
    simp only [Expr.text, String.toList_append, String.reduceToList, List.cons_append]
    rw [List.nil_append, lexemes_openParen]
    rfl
  | .binary _ operator left right, _, rest, _ => by
    simp only [Expr.text, String.toList_append, String.reduceToList, List.cons_append]
    rw [List.nil_append, lexemes_openParen]
    rfl
  | .conditional _ condition consequence alternative, _, rest, _ => by
    simp only [Expr.text, String.toList_append, String.reduceToList, List.cons_append]
    rw [lexemes_if]
    rfl
  | .function token parameters body, legible, rest, _ => by
    obtain ⟨spelled, defines⟩ := legible _ (.head _)
    simp only [Expr.text, String.toList_append, String.reduceToList, List.append_assoc,
      List.cons_append]
    rw [spelled.spells (free_openParen _), List.singleton_append, front_cons, defines]
    rfl
  | .call _ callee arguments, legible, rest, _ => by
    obtain ⟨-, legible⟩ := forall_mem_cons.mp legible
    obtain ⟨legible, -⟩ := forall_mem_append.mp legible
    simp only [Expr.text, String.toList_append, String.reduceToList, List.append_assoc,
      List.cons_append]
    exact callee.operand_front_text legible (free_openParen _)

/-- What an operator stands in front of does not begin with a character that is drawn into it. -/
theorem Expr.head?_text (value : Expr) (legible : ∀ node ∈ value.nodes, node.Legible)
    {rest : List Char} (free : Free rest) : (value.text.toList ++ rest).head? ≠ some '=' := by
  intro equals
  obtain ⟨behind, split⟩ := List.head?_eq_some_iff.mp equals
  have begins := value.operand_front_text legible free
  rw [split, front_lexemes_equals] at begins
  cases begins

/-- What may stand behind an expression that is called, or behind a block. -/
structure Unjoined (rest : List Char) : Prop where
  free : Free rest
  final : (front (lexemes rest)).kind ≠ .elseWord

/-- What may stand behind an expression that is not called. -/
structure Detached (rest : List Char) : Prop extends Unjoined rest where
  uncalled : rest.head? ≠ some '('

section Behind

variable (rest : List Char)

theorem detached_nil : Detached [] :=
  ⟨⟨free_nil, by rw [lexemes_nil]; exact nofun⟩, nofun⟩

theorem detached_closeParen : Detached (')' :: rest) :=
  ⟨⟨free_closeParen rest, by rw [lexemes_closeParen]; exact nofun⟩, by simp⟩

theorem detached_comma : Detached (',' :: rest) :=
  ⟨⟨free_comma rest, by rw [lexemes_comma]; exact nofun⟩, by simp⟩

theorem detached_semicolon : Detached (';' :: rest) :=
  ⟨⟨free_semicolon rest, by rw [lexemes_semicolon]; exact nofun⟩, by simp⟩

theorem detached_blank {blank : Char} (isBlank : Alphabet.isBlank blank = true)
    (final : (front (lexemes rest)).kind ≠ .elseWord) : Detached (blank :: rest) := by
  refine ⟨⟨free_cons rest ?_, by rwa [lexemes_blank isBlank]⟩, ?_⟩
  · rcases (Alphabet.isBlank_iff blank).mp isBlank with rfl | rfl | rfl | rfl <;> decide
  · rintro ⟨⟩
    cases isBlank

theorem unjoined_openParen : Unjoined ('(' :: rest) :=
  ⟨free_openParen rest, by rw [lexemes_openParen]; exact nofun⟩

end Behind

/-- The rule that a statement begins with, if it is not an expression. -/
def Stmt.rule? : Stmt → Option StatementRule
  | .declaration .. => some .declaration
  | .ret .. => some .ret
  | .expression .. => none

/-- The kinds that begin a statement. -/
def Kind.Begins (kind : Kind) : Prop :=
  (Rules.standard.operand kind).isSome ∨ (Rules.standard.statement kind).isSome

theorem Kind.Begins.ne {kind : Kind} (begins : kind.Begins) :
    kind ≠ .elseWord ∧ kind ≠ .closeCurly ∧ kind ≠ .endOfInput := by
  unfold Kind.Begins at begins
  refine ⟨?_, ?_, ?_⟩ <;> rintro rfl <;> exact absurd begins (by decide)

theorem Kind.statement_eq_none {kind : Kind} {rule : OperandRule}
    (begins : Rules.standard.operand kind = some rule) : Rules.standard.statement kind = none := by
  cases kind <;> first | rfl | cases begins

/-- The first token of a statement is of a kind that begins it. -/
theorem Stmt.front_text {statement : Stmt} (legible : ∀ node ∈ statement.nodes, node.Legible)
    {rest : List Char} (free : Free rest) :
    (front (lexemes (statement.text.toList ++ rest))).kind.Begins ∧
      Rules.standard.statement (front (lexemes (statement.text.toList ++ rest))).kind =
        statement.rule? := by
  cases statement with
  | declaration token name value =>
    obtain ⟨spelled, declares⟩ := legible _ (.head _)
    simp only [Stmt.text, String.toList_append, String.reduceToList, List.append_assoc,
      List.cons_append]
    rw [spelled.spells (free_space _), List.singleton_append, front_cons, declares]
    exact ⟨.inr rfl, rfl⟩
  | ret token value =>
    obtain ⟨spelled, returns⟩ := legible _ (.head _)
    simp only [Stmt.text, String.toList_append, String.reduceToList, List.append_assoc,
      List.cons_append]
    rw [spelled.spells (free_space _), List.singleton_append, front_cons, returns]
    exact ⟨.inr rfl, rfl⟩
  | expression token value =>
    have begins := value.operand_front_text (forall_mem_cons.mp legible).2 free
    exact ⟨.inl (by rw [Stmt.text, begins]; rfl), Kind.statement_eq_none begins⟩

end ScriptReader
