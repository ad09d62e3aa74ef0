import ScriptReader.Proofs.Beginnings
import ScriptReader.Proofs.Codes

/-! # Where expressions end

Names, expressions and statements are written in texts that end by themselves. For an expression
this holds if it holds for its parts: one of each form is told from the others by its first token,
and calls are told one after the other behind the expression that is called first.
-/

namespace ScriptReader

open List (forall_mem_nil forall_mem_cons forall_mem_append)

/-- What is stored for a node when the tokens do not matter. -/
abbrev Node.erased : Node → Token := fun _ => .endOfInput

def Name.code : Code Name Name where
  fits := Name.Legible
  text name := name.text.toList
  kept name := ⟨.endOfInput, name.text⟩
  ends := Free

def Expr.code : Code Expr Expr where
  fits value := ∀ node ∈ value.nodes, node.Legible
  text value := value.text.toList
  kept := Expr.retokened Node.erased
  ends := Detached

def Stmt.code : Code Stmt Stmt where
  fits statement := ∀ node ∈ statement.nodes, node.Legible
  text statement := statement.text.toList
  kept := Stmt.retokened Node.erased
  ends := Detached

def Block.code : Code Block Block where
  fits block := ∀ node ∈ block.nodes, node.Legible
  text block := block.text.toList
  kept := Block.retokened Node.erased
  ends _ := True

def Block.alternativeCode : Code (Option Block) (Option Block) where
  fits block := ∀ node ∈ Block.alternativeNodes block, node.Legible
  text block := (Block.alternativeText block).toList
  kept := Block.alternativeRetokened Node.erased
  ends := Unjoined

/-- Parameters up to the closing parenthesis. -/
def Name.parametersCode : Code (List Name) (List Name) :=
  Name.code.listed [',', ' '] [')'] fun _ => True

/-- Arguments up to the closing parenthesis. -/
def Expr.argumentsCode : Code (List Expr) (List Expr) :=
  Expr.code.listed [',', ' '] [')'] fun _ => True

/-- The arguments of a call, of a call of its result, and so on. -/
def Expr.callsCode : Code (List (List Expr)) (List (List Expr)) :=
  Expr.argumentsCode.led ['('] [] fun rest => rest.head? ≠ some '('

/-- Statements up to the closing brace. -/
def Stmt.bodyCode : Code (List Stmt) (List Stmt) :=
  Stmt.code.led [' '] [' ', '\x7d'] fun _ => True

/-- Statements up to the end of the text. -/
def Stmt.linesCode : Code (List Stmt) (List Stmt) :=
  Stmt.code.listed ['\n'] [] fun rest => rest = []

theorem Name.parameters_parts : Name.code.Parts [',', ' '] [')'] fun _ => True where
  leads _ _ := free_comma _
  closes _ := free_closeParen _
  apart _ _ _ := nofun

theorem Expr.arguments_parts : Expr.code.Parts [',', ' '] [')'] fun _ => True where
  leads _ _ := detached_comma _
  closes _ := detached_closeParen _
  apart _ _ _ := nofun

theorem Expr.calls_parts :
    Expr.argumentsCode.Parts ['('] [] fun rest => rest.head? ≠ some '(' where
  leads _ _ := trivial
  closes _ := trivial
  apart _ _ uncalled same := uncalled (congrArg List.head? same).symm

theorem Stmt.detached_blank_text {blank : Char} (isBlank : Alphabet.isBlank blank = true)
    {statement : Stmt} (legible : ∀ node ∈ statement.nodes, node.Legible) {rest : List Char}
    (ends : Detached rest) : Detached (blank :: (statement.text.toList ++ rest)) :=
  detached_blank _ isBlank (Stmt.front_text legible ends.free).1.ne.1

theorem Stmt.body_parts : Stmt.code.Parts [' '] [' ', '\x7d'] fun _ => True where
  leads legible ends := Stmt.detached_blank_text rfl legible ends
  closes _ := by
    refine detached_blank _ rfl ?_
    exact lexemes_closeCurly _ ▸ nofun
  apart := by
    intro statement rest rest' legible ends _ same
    have same : statement.text.toList ++ rest = '\x7d' :: rest' := List.tail_eq_of_cons_eq same
    have begins := (Stmt.front_text legible ends.free).1
    rw [same, lexemes_closeCurly] at begins
    exact begins.ne.2.1 rfl

theorem Stmt.lines_parts : Stmt.code.Parts ['\n'] [] fun rest => rest = [] where
  leads legible ends := Stmt.detached_blank_text rfl legible ends
  closes := by
    rintro _ rfl
    exact detached_nil
  apart _ _ empty same := by
    rw [empty] at same
    cases same

/-! ## Calls of calls -/

namespace Expr

/-- The expression that is called first. -/
def head : Expr → Expr
  | .call _ callee _ => callee.head
  | value => value

/-- The arguments of its calls, the first call first. -/
def calls : Expr → List (List Expr)
  | .call _ callee arguments => callee.calls ++ [arguments]
  | _ => []

/-- An expression is called first itself, or it is a call of another one. -/
theorem calls_induction {motive : Expr → Prop}
    (uncalled : ∀ value, value.head = value → value.calls = [] → motive value)
    (call : ∀ token callee arguments, motive callee → motive (.call token callee arguments)) :
    ∀ value, motive value
  | .call token callee arguments =>
    call token callee arguments (calls_induction uncalled call callee)
  | .identifier _ => uncalled _ rfl rfl
  | .integer .. => uncalled _ rfl rfl
  | .boolean .. => uncalled _ rfl rfl
  | .unary .. => uncalled _ rfl rfl
  | .binary .. => uncalled _ rfl rfl
  | .conditional .. => uncalled _ rfl rfl
  | .function .. => uncalled _ rfl rfl

theorem texts_eq_map (values : List Expr) : texts values = values.map text := by
  induction values with
  | nil => rfl
  | cons first rest ih => rw [texts, List.map_cons, ih]

theorem listRetokened_eq_map (choose : Node → Token) (values : List Expr) :
    listRetokened choose values = values.map (retokened choose) := by
  induction values with
  | nil => rfl
  | cons first rest ih => rw [listRetokened, List.map_cons, ih]

theorem argumentsCode_text (arguments : List Expr) :
    argumentsCode.text arguments = (", ".intercalate (texts arguments)).toList ++ [')'] := by
  rw [String.toList_intercalate, texts_eq_map, List.map_map]
  rfl

/-- The text of an expression is that of what is called first, and then the calls. -/
theorem text_head (value : Expr) :
    value.text.toList = value.head.text.toList ++ callsCode.text value.calls := by
  induction value using calls_induction with
  | uncalled value head calls =>
    rw [head, calls]
    exact (List.append_nil _).symm
  | call token callee arguments ih =>
    have more : callsCode.text (callee.calls ++ [arguments]) =
        callsCode.text callee.calls ++ '(' :: argumentsCode.text arguments := by
      simp [callsCode, Code.led]
    rw [head, calls, more, argumentsCode_text, ← List.append_assoc, ← ih]
    simp [text]

/-- What is called first determines the expression together with the calls. -/
theorem retokened_head (value : Expr) : value.retokened Node.erased =
    (callsCode.kept value.calls).foldl (.call .endOfInput) (value.head.retokened Node.erased) := by
  induction value using calls_induction with
  | uncalled value head calls =>
    rw [head, calls]
    rfl
  | call token callee arguments ih =>
    have more : callsCode.kept (callee.calls ++ [arguments]) =
        callsCode.kept callee.calls ++ [listRetokened Node.erased arguments] := by
      rw [listRetokened_eq_map]
      exact List.map_append
    rw [head, calls, more, List.foldl_concat, ← ih]
    rfl

theorem calls_head (value : Expr) : value.head.calls = [] := by
  induction value using calls_induction with
  | uncalled value head calls => rw [head, calls]
  | call token callee arguments ih => exact ih

theorem fits_list {values : List Expr} (legible : ∀ node ∈ listNodes values, node.Legible) :
    ∀ value ∈ values, code.fits value := by
  induction values with
  | nil => exact forall_mem_nil _
  | cons first rest ih =>
    obtain ⟨legible, legible'⟩ := forall_mem_append.mp legible
    exact forall_mem_cons.mpr ⟨legible, ih legible'⟩

theorem fits_head {value : Expr} (legible : code.fits value) :
    code.fits value.head ∧ callsCode.fits value.calls := by
  induction value using calls_induction with
  | uncalled value head calls =>
    rw [head, calls]
    exact ⟨legible, forall_mem_nil _⟩
  | call token callee arguments ih =>
    obtain ⟨-, legible⟩ := forall_mem_cons.mp legible
    obtain ⟨legible, legible'⟩ := forall_mem_append.mp legible
    obtain ⟨fits, each⟩ := ih legible
    exact ⟨fits, forall_mem_append.mpr
      ⟨each, List.forall_mem_singleton.mpr (fits_list legible')⟩⟩

/-- The calls behind an expression that is called first do not run into it. -/
theorem unjoined_calls (calls : List (List Expr)) {rest : List Char} (ends : Detached rest) :
    Unjoined (callsCode.text calls ++ rest) := by
  cases calls with
  | nil => exact ends.toUnjoined
  | cons arguments calls => exact unjoined_openParen _

/-- How an expression is written that is no call. -/
def headCode : Code Expr Expr where
  fits value := code.fits value ∧ value.calls = []
  text := code.text
  kept := code.kept
  ends := Unjoined

theorem delimits_arguments {arguments : List Expr} (legible : ∀ value ∈ arguments, code.fits value)
    (each : ∀ value ∈ arguments, code.Delimits value) : argumentsCode.Delimits arguments := by
  refine arguments_parts.delimits_listed (fun {value rest rest'} fits ends _ same => ?_) legible each
  have same : value.text.toList ++ rest = ')' :: rest' := same
  have begins := value.operand_front_text fits ends.free
  rw [same, lexemes_closeParen] at begins
  cases begins

/-- What is called first in the expression can be told from its text, and so can all arguments. -/
structure Separable (value : Expr) : Prop where
  first : headCode.Delimits value.head
  each : ∀ arguments ∈ value.calls, ∀ argument ∈ arguments, code.Delimits argument

theorem Separable.delimits {value : Expr} (separable : value.Separable)
    (legible : code.fits value) : code.Delimits value := by
  intro other rest rest' legible' ends ends' same
  obtain ⟨-, given⟩ := fits_head legible
  obtain ⟨fits', given'⟩ := fits_head legible'
  have same : value.head.text.toList ++ (callsCode.text value.calls ++ rest) =
      other.head.text.toList ++ (callsCode.text other.calls ++ rest') := by
    rw [← List.append_assoc, ← List.append_assoc, ← text_head, ← text_head]
    exact same
  -- What is called first ends at the same place in both texts, and then so do the calls.
  obtain ⟨kept, same⟩ := separable.first ⟨fits', calls_head other⟩ (unjoined_calls _ ends)
    (unjoined_calls _ ends') same
  have called : callsCode.Delimits value.calls := by
    refine calls_parts.delimits_led given fun arguments among => ?_
    exact delimits_arguments (given arguments among) (separable.each arguments among)
  obtain ⟨kept', rfl⟩ := called given' ends.uncalled ends'.uncalled same
  have kept : value.head.retokened Node.erased = other.head.retokened Node.erased := kept
  have whole : value.retokened Node.erased = other.retokened Node.erased := by
    rw [retokened_head, retokened_head other, kept, kept']
  exact ⟨whole, rfl⟩

end Expr

/-! ## Names and expressions that are no calls -/

theorem Name.delimits {name : Name} (legible : name.Legible) : Name.code.Delimits name := by
  obtain ⟨spelled, -, literal⟩ := legible
  rintro other rest rest' ⟨spelled', -, literal'⟩ free free' same
  have same : name.text.toList ++ rest = other.text.toList ++ rest' := same
  rw [literal, literal'] at same
  obtain ⟨token, rfl⟩ := spelled.cut spelled' free free' same
  have text : name.text = other.text := by rw [literal, literal', token]
  exact ⟨congrArg (Name.mk .endOfInput) text, rfl⟩

theorem Name.delimits_parameters {names : List Name} (legible : ∀ name ∈ names, name.Legible) :
    Name.parametersCode.Delimits names := by
  refine parameters_parts.delimits_listed (fun {name rest rest'} fits free _ same => ?_) legible
    fun name among => Name.delimits (legible name among)
  obtain ⟨spelled, ⟨named, literal⟩⟩ := fits
  have same : name.text.toList ++ rest = ')' :: rest' := same
  have read := spelled.spells free
  rw [← literal, same, lexemes_closeParen, List.singleton_append, List.cons.injEq] at read
  rw [← read.1] at named
  cases named

namespace Expr

variable {token : Token} {operator : String} {left right operand condition callee : Expr}

theorem opening_eq {value other : Expr} (legible : code.fits value) (legible' : code.fits other)
    {rest rest' : List Char} (free : Free rest) (free' : Free rest')
    (same : value.text.toList ++ rest = other.text.toList ++ rest') :
    value.opening = other.opening := by
  have begins := value.operand_front_text legible free
  rw [same, other.operand_front_text legible' free'] at begins
  exact (Option.some.inj begins).symm

theorem delimits_identifier {name : Name} (legible : code.fits (.identifier name)) :
    headCode.Delimits (.identifier name) := by
  rintro other rest rest' ⟨legible', uncalled⟩ ends ends' same
  have opening := opening_eq legible legible' ends.free ends'.free same
  cases other with
  | identifier name' =>
    obtain ⟨kept, rest⟩ := Name.delimits (legible _ (.head _)) (legible' _ (.head _)) ends.free
      ends'.free same
    exact ⟨congrArg Expr.identifier kept, rest⟩
  | call => simp [calls] at uncalled
  | _ => cases opening

theorem delimits_integer {value : Int} (legible : code.fits (.integer token value)) :
    headCode.Delimits (.integer token value) := by
  rintro other rest rest' ⟨legible', uncalled⟩ ends ends' same
  have opening := opening_eq legible legible' ends.free ends'.free same
  cases other with
  | integer token' value' =>
    obtain ⟨natural, fits⟩ : 0 ≤ value ∧ Numeral.Fits value := legible _ (.head _)
    obtain ⟨natural', fits'⟩ : 0 ≤ value' ∧ Numeral.Fits value' := legible' _ (.head _)
    obtain ⟨numeral, rest⟩ := (Token.spelled_numeral natural).cut (Token.spelled_numeral natural')
      ends.free ends'.free same
    have denoted := Numeral.signed?_text natural fits
    rw [show Numeral.text value = _ from congrArg Token.literal numeral] at denoted
    obtain rfl := Option.some.inj (denoted.symm.trans (Numeral.signed?_text natural' fits'))
    exact ⟨rfl, rest⟩
  | call => simp [calls] at uncalled
  | _ => cases opening

theorem delimits_boolean {value : Bool} (legible : code.fits (.boolean token value)) :
    headCode.Delimits (.boolean token value) := by
  rintro other rest rest' ⟨legible', uncalled⟩ ends ends' same
  have opening := opening_eq legible legible' ends.free ends'.free same
  cases other with
  | boolean token' value' =>
    have same : (Expr.boolean token value).text.toList ++ rest =
      (Expr.boolean token' value').text.toList ++ rest' := same
    rw [text_boolean, text_boolean] at same
    obtain ⟨truth, rest⟩ := (Token.spelled_truth value).cut (Token.spelled_truth value')
      ends.free ends'.free same
    obtain rfl : value = value' := by
      cases value <;> cases value' <;> first | rfl | cases truth
    exact ⟨rfl, rest⟩
  | call => simp [calls] at uncalled
  | _ => cases opening

theorem text_unary (rest : List Char) : (Expr.unary token operator operand).text.toList ++ rest =
    '(' :: (operator.toList ++ (operand.text.toList ++ ')' :: rest)) := by
  simp [text]

theorem text_binary (rest : List Char) :
    (Expr.binary token operator left right).text.toList ++ rest =
      '(' :: (left.text.toList ++
        ' ' :: (operator.toList ++ ' ' :: (right.text.toList ++ ')' :: rest))) := by
  simp [text]

theorem lexemes_unary (legible : code.fits (.unary token operator operand)) (rest : List Char) :
    lexemes (operator.toList ++ (operand.text.toList ++ ')' :: rest)) =
      token :: lexemes (operand.text.toList ++ ')' :: rest) := by
  obtain ⟨⟨spelled, operates, rfl⟩, inner⟩ := forall_mem_cons.mp legible
  exact spelled.lexemes_operator operates (operand.head?_text inner (free_closeParen rest))

/-- An operator in front of an operand is never taken for a left operand. -/
theorem unary_ne_binary {token' : Token} {operator' : String}
    (legible : code.fits (.unary token operator operand))
    (legible' : code.fits (.binary token' operator' left right)) (rest rest' : List Char) :
    (Expr.unary token operator operand).text.toList ++ rest ≠
      (Expr.binary token' operator' left right).text.toList ++ rest' := by
  intro same
  rw [text_unary, text_binary] at same
  have same := List.tail_eq_of_cons_eq same
  obtain ⟨-, operates, -⟩ := legible _ (.head _)
  obtain ⟨-, inner⟩ := forall_mem_cons.mp legible'
  have begins := left.operand_front_text (forall_mem_append.mp inner).1
    (free_space (operator'.toList ++ ' ' :: (right.text.toList ++ ')' :: rest')))
  rw [← same, lexemes_unary legible, front_cons] at begins
  refine left.opening_ne_unary (Option.some.inj (begins.symm.trans ?_))
  rcases operates with kind | kind <;> rw [kind] <;> rfl

theorem delimits_unary (legible : code.fits (.unary token operator operand))
    (inner : code.Delimits operand) : headCode.Delimits (.unary token operator operand) := by
  rintro other rest rest' ⟨legible', uncalled⟩ ends ends' same
  have opening := opening_eq legible legible' ends.free ends'.free same
  cases other with
  | unary token' operator' operand' =>
    have same := (text_unary rest).symm.trans (same.trans (text_unary rest'))
    have same := List.tail_eq_of_cons_eq same
    have read := lexemes_unary legible rest
    have read' := lexemes_unary legible' rest'
    obtain ⟨⟨-, -, rfl⟩, -⟩ := forall_mem_cons.mp legible
    obtain ⟨⟨-, -, rfl⟩, fits'⟩ := forall_mem_cons.mp legible'
    obtain ⟨rfl, behind⟩ := Token.eq_of_read read read' same
    obtain ⟨kept, behind⟩ := inner fits' (detached_closeParen _) (detached_closeParen _) behind
    exact ⟨congrArg (Expr.unary .endOfInput token.literal) kept, List.tail_eq_of_cons_eq behind⟩
  | binary => exact (unary_ne_binary legible legible' rest rest' same).elim
  | call => simp [calls] at uncalled
  | _ => cases opening

/-- Behind the left operand stands an operator. -/
theorem detached_operator (legible : code.fits (.binary token operator left right))
    (rest : List Char) : Detached (' ' :: (operator.toList ++ ' ' :: rest)) := by
  obtain ⟨⟨spelled, operates, rfl⟩, -⟩ := forall_mem_cons.mp legible
  refine detached_blank _ rfl ?_
  rw [spelled.spells (free_space rest), List.singleton_append, front_cons]
  intro kind
  rw [kind] at operates
  cases operates

theorem delimits_binary (legible : code.fits (.binary token operator left right))
    (inner : code.Delimits left) (inner' : code.Delimits right) :
    headCode.Delimits (.binary token operator left right) := by
  rintro other rest rest' ⟨legible', uncalled⟩ ends ends' same
  have opening := opening_eq legible legible' ends.free ends'.free same
  cases other with
  | unary => exact (unary_ne_binary legible' legible rest' rest same.symm).elim
  | binary token' operator' left' right' =>
    have same := (text_binary rest).symm.trans (same.trans (text_binary rest'))
    have apart := detached_operator legible (right.text.toList ++ ')' :: rest)
    have apart' := detached_operator legible' (right'.text.toList ++ ')' :: rest')
    obtain ⟨⟨spelled, -, rfl⟩, -⟩ := forall_mem_cons.mp legible
    obtain ⟨⟨spelled', -, rfl⟩, fits'⟩ := forall_mem_cons.mp legible'
    obtain ⟨fits', fits''⟩ := forall_mem_append.mp fits'
    obtain ⟨kept, behind⟩ := inner fits' apart apart' (List.tail_eq_of_cons_eq same)
    obtain ⟨rfl, behind'⟩ := spelled.cut spelled' (free_space _) (free_space _)
      (List.tail_eq_of_cons_eq behind)
    obtain ⟨kept', behind'⟩ := inner' fits'' (detached_closeParen _) (detached_closeParen _)
      (List.tail_eq_of_cons_eq behind')
    exact ⟨congrArg₂ (Expr.binary .endOfInput token.literal) kept kept',
      List.tail_eq_of_cons_eq behind'⟩
  | call => simp [calls] at uncalled
  | _ => cases opening

theorem text_conditional (consequence : Block) (alternative : Option Block) (rest : List Char) :
    (Expr.conditional token condition consequence alternative).text.toList ++ rest =
      "if (".toList ++ (condition.text.toList ++ ')' :: ' ' ::
        (consequence.text.toList ++ ((Block.alternativeText alternative).toList ++ rest))) := by
  simp [text]

theorem delimits_conditional {consequence : Block} {alternative : Option Block}
    (legible : code.fits (.conditional token condition consequence alternative))
    (tested : code.Delimits condition) (chosen : Block.code.Delimits consequence)
    (left : Block.alternativeCode.Delimits alternative) :
    headCode.Delimits (.conditional token condition consequence alternative) := by
  rintro other rest rest' ⟨legible', uncalled⟩ ends ends' same
  have opening := opening_eq legible legible' ends.free ends'.free same
  cases other with
  | conditional token' condition' consequence' alternative' =>
    obtain ⟨-, fits⟩ := forall_mem_cons.mp legible'
    obtain ⟨fits, fits''⟩ := forall_mem_append.mp fits
    obtain ⟨fits, fits'⟩ := forall_mem_append.mp fits
    have same := (text_conditional ..).symm.trans (same.trans (text_conditional ..))
    obtain ⟨kept, behind⟩ := tested fits (detached_closeParen _) (detached_closeParen _)
      (List.append_cancel_left same)
    obtain ⟨kept', behind⟩ := chosen fits' trivial trivial
      (List.tail_eq_of_cons_eq (List.tail_eq_of_cons_eq behind))
    obtain ⟨kept'', rfl⟩ := left fits'' ends ends' behind
    have whole : Expr.conditional .endOfInput (code.kept condition) (Block.code.kept consequence)
        (Block.alternativeCode.kept alternative) = .conditional .endOfInput (code.kept condition')
        (Block.code.kept consequence') (Block.alternativeCode.kept alternative') := by
      rw [kept, kept', kept'']
    exact ⟨whole, rfl⟩
  | call => simp [calls] at uncalled
  | _ => cases opening

theorem text_function {parameters : List Name} {body : Block}
    (legible : code.fits (.function token parameters body)) (rest : List Char) :
    (Expr.function token parameters body).text.toList ++ rest =
      "fn(".toList ++ (Name.parametersCode.text parameters ++
        ' ' :: (body.text.toList ++ rest)) := by
  obtain ⟨spelled, defines⟩ := legible _ (.head _)
  obtain rfl := spelled.eq_of_kind defines rfl
  simp [text, Name.parametersCode, Code.listed, Name.code, String.toList_intercalate,
    Function.comp_def]

theorem delimits_function {parameters : List Name} {body : Block}
    (legible : code.fits (.function token parameters body)) (does : Block.code.Delimits body) :
    headCode.Delimits (.function token parameters body) := by
  rintro other rest rest' ⟨legible', uncalled⟩ ends ends' same
  have opening := opening_eq legible legible' ends.free ends'.free same
  cases other with
  | function token' parameters' body' =>
    have same := (text_function legible _).symm.trans (same.trans (text_function legible' _))
    obtain ⟨-, fits⟩ := forall_mem_cons.mp legible
    obtain ⟨named, -⟩ := forall_mem_append.mp fits
    obtain ⟨-, fits'⟩ := forall_mem_cons.mp legible'
    obtain ⟨named', fits'⟩ := forall_mem_append.mp fits'
    rw [List.forall_mem_map] at named named'
    obtain ⟨kept, behind⟩ := Name.delimits_parameters named named' trivial trivial
      (List.append_cancel_left same)
    obtain ⟨kept', rfl⟩ := does fits' trivial trivial (List.tail_eq_of_cons_eq behind)
    exact ⟨congrArg₂ (Expr.function .endOfInput) kept kept', rfl⟩
  | call => simp [calls] at uncalled
  | _ => cases opening

end Expr

end ScriptReader
