import Mathlib.Order.Filter.AtTopBot.Basic
import ScriptReader.Proofs.Writing

/-! # Every writing is accepted

A writing that has room, and that the token behind it does not continue, is accepted by the rule for
it: every descent with enough fuel answers the tree and leaves the parser at the last token of the
writing. An expression is followed from its leftmost operand outwards, since the rule for operators
gathers the tree from there; what is carried along is the outcome that the operators behind the
writing come to.
-/

namespace ScriptReader

open Filter Parse Descent

/-- What one more level of recursion comes to in the end is what the recursion comes to. -/
theorem eventually_of_succ {holds : Nat → Prop} (later : ∀ᶠ fuel in atTop, holds (fuel + 1)) :
    ∀ᶠ fuel in atTop, holds fuel := by
  rw [← map_add_atTop_eq_nat 1]
  exact eventually_map.mpr later

/-- A written expression such that reading it at its place comes to whatever reading on behind it
comes to. -/
structure Expr.Recognized (edge : Edge) (level : Nat) (value : Expr) (tokens : List Token) :
    Prop where
  written : Expr.Written edge level value tokens
  leads {p : Parser (List Token)} {rest : List Token} {bound : Precedence}
    {outcome : Outcome (List Token) Expr} (standard : p.rules = .standard)
    (room : Room p.limit p.nesting level) (weak : bound < .call) (fits : edge.Fits bound)
    (ends : edge.EndsBefore edge.strength (front rest).kind)
    (behind : ∀ᶠ fuel in atTop,
      (descent fuel).operators bound value (p.deeper.facing (window tokens rest)) = outcome) :
    ∀ᶠ fuel in atTop, ((descent fuel).operand >>= (descent fuel).operators bound)
      (p.deeper.facing (tokens ++ rest)) = outcome

/-- Written arguments that are accepted before a token that is no comma. -/
structure Expr.RecognizedList (edge : Edge) (level : Nat) (values : List Expr)
    (tokens : List Token) :
    Prop where
  written : Expr.WrittenList edge level values tokens
  accepted {p : Parser (List Token)} {rest : List Token} (standard : p.rules = .standard)
    (room : Room p.limit p.nesting level) (ends : edge.EndsBefore .lowest (front rest).kind)
    (apart : (front rest).kind ≠ .comma) :
    ∀ᶠ fuel in atTop, (descent fuel).arguments (p.facing (tokens ++ rest)) =
      .accepted values (p.facing (window tokens rest))

structure Expr.RecognizedArguments (level : Nat) (values : List Expr) (tokens : List Token) :
    Prop where
  written : Expr.Listed level values tokens
  accepted {p : Parser (List Token)} (standard : p.rules = .standard)
    (room : Room p.limit p.nesting level) (opening : Token) (rest : List Token) :
    ∀ᶠ fuel in atTop, (descent fuel).argumentList (p.facing (opening :: (tokens ++ rest))) =
      .accepted values (p.facing (window tokens rest))

structure Stmt.Recognized (ending : Option Edge) (level : Nat) (statement : Stmt)
    (tokens : List Token) : Prop where
  written : Stmt.Written ending level statement tokens
  accepted {p : Parser (List Token)} {rest : List Token} (standard : p.rules = .standard)
    (room : Room p.limit p.nesting level) (apart : Apart ending (front rest).kind) :
    ∀ᶠ fuel in atTop, (descent fuel).statement (p.facing (tokens ++ rest)) =
      .accepted statement (p.facing (window tokens rest))

structure Stmt.RecognizedList (level : Nat) (body : List Stmt) (tokens : List Token) : Prop where
  written : Stmt.WrittenList level body tokens
  accepted {p : Parser (List Token)} {closing : Token} (standard : p.rules = .standard)
    (room : Room p.limit p.nesting level) (closes : closing.kind = .closeCurly)
    (rest : List Token) :
    ∀ᶠ fuel in atTop, (descent fuel).statements (p.facing (tokens ++ closing :: rest)) =
      .accepted body (p.facing (closing :: rest))

structure Block.Recognized (level : Nat) (block : Block) (tokens : List Token) : Prop where
  written : Block.Written level block tokens
  accepted {p : Parser (List Token)} (standard : p.rules = .standard)
    (room : Room p.limit p.nesting level) (rest : List Token) :
    ∀ᶠ fuel in atTop, (descent fuel).block (p.facing (tokens ++ rest)) =
      .accepted block (p.facing (window tokens rest))

section Names

variable {p : Parser (List Token)} {read tokens rest : List Token} {names : List Name}

theorem Name.WrittenList.accepted (written : Name.WrittenList names tokens) :
    ∀ {read : List Token}, read ≠ [] → (front rest).kind ≠ .comma →
    ∀ᶠ fuel in atTop, (descent fuel).parameters (p.facing (window read (tokens ++ rest))) =
      .accepted names (p.facing (window tokens rest)) := by
  induction written with
  | @single name named =>
    intro read nonempty apart
    refine eventually_of_succ (Eventually.of_forall fun fuel => ?_)
    change (descent fuel).parametersStep _ = _
    rw [parametersStep, List.singleton_append, bind_accepted (expect_accepted nonempty named),
      peek_bind, Parser.peek_facing, List.tail_cons, if_neg apart]
    rfl
  | @cons name comma names tokens named separated written ih =>
    intro read nonempty apart
    refine eventually_of_succ ?_
    filter_upwards [ih (List.cons_ne_nil comma []) apart] with fuel ran
    change (descent fuel).parametersStep _ = _
    rw [parametersStep, List.cons_append, bind_accepted (expect_accepted nonempty named), peek_bind,
      Parser.peek_facing, List.tail_cons, List.cons_append, front_cons, if_pos separated,
      advance_bind, Parser.advance_facing, List.tail_cons, ← window_singleton, bind_accepted ran]
    rw [window_cons _ (by simp), window_cons _ written.ne_nil]
    rfl

theorem Name.Listed.accepted (listed : Name.Listed names tokens) (nonempty : read ≠ [])
    (rest : List Token) :
    ∀ᶠ fuel in atTop, (descent fuel).parameterList (p.facing (window read (tokens ++ rest))) =
      .accepted names (p.facing (window tokens rest)) := by
  cases listed with
  | none closes =>
    refine Eventually.of_forall fun fuel => ?_
    rw [parameterList, peek_bind, Parser.peek_window _ nonempty, List.singleton_append, front_cons,
      if_pos closes, advance_bind, Parser.advance_window _ nonempty]
    rfl
  | @some closing names tokens given closes =>
    have apart : (front ([closing] ++ rest)).kind ≠ .comma := by simp [closes]
    filter_upwards [given.accepted nonempty apart] with fuel ran
    have first : (front (tokens ++ ([closing] ++ rest))).kind ≠ .closeParen := by
      rw [front_append_of_ne_nil given.ne_nil]
      simp [given.front_kind]
    rw [parameterList, List.append_assoc, peek_bind, Parser.peek_window _ nonempty, if_neg first,
      bind_accepted ran, List.singleton_append, bind_accepted (expect_accepted given.ne_nil closes)]
    rw [window_concat]
    rfl

end Names

/-- The checked advance, from a token that has just been looked at. -/
theorem expect_cons {p : Parser (List Token)} {expected : Kind} {token : Token}
    (kind : token.kind = expected) (last : Token) (rest : List Token) :
    expect expected (p.facing (last :: token :: rest)) =
      .accepted token (p.facing (token :: rest)) :=
  expect_accepted (List.cons_ne_nil last []) kind

/-- A block behind the token that announces it. -/
theorem Block.Recognized.braced {p : Parser (List Token)} {level : Nat} {block : Block}
    {read tokens : List Token} (recognized : Block.Recognized level block tokens)
    (standard : p.rules = .standard) (room : Room p.limit p.nesting level) (nonempty : read ≠ [])
    (rest : List Token) :
    ∀ᶠ fuel in atTop, ∀ {α : Type} (next : Block → Parse (List Token) α),
      (expect .openCurly >>= fun _ => (descent fuel).block >>= next)
        (p.facing (window read (tokens ++ rest))) = next block (p.facing (window tokens rest)) := by
  filter_upwards [recognized.accepted standard room rest] with fuel ran
  intro α next
  cases recognized.written with
  | mk opens statements closes =>
    simp only [List.cons_append] at ran ⊢
    rw [bind_accepted (expect_accepted nonempty opens), bind_accepted ran]

namespace Expr.Recognized

variable {edge : Edge} {level : Nat} {value : Expr} {tokens : List Token}

/-- An operand followed by no operator of its own. -/
theorem of_operand {rule : OperandRule} (written : Expr.Written edge level value tokens)
    (begins : Rules.standard.operand (front tokens).kind = some rule)
    (runs : ∀ {p : Parser (List Token)} (rest : List Token), p.rules = .standard →
      Room p.limit p.nesting level → edge.EndsBefore edge.strength (front rest).kind →
      ∀ᶠ fuel in atTop, (descent fuel).operandBy rule (p.deeper.facing (tokens ++ rest)) =
        .accepted value (p.deeper.facing (window tokens rest))) :
    Expr.Recognized edge level value tokens := by
  refine ⟨written, ?_⟩
  intro p rest bound outcome standard room _ _ ends behind
  have table : (p.deeper.facing (tokens ++ rest)).rules.operand
      (p.deeper.facing (tokens ++ rest)).current.kind = some rule := by
    rw [Parser.current_facing, front_append_of_ne_nil written.ne_nil, Parser.rules_facing,
      Parser.rules_deeper, standard, begins]
  filter_upwards [runs rest standard room ends, behind] with fuel ran ended
  rw [bind_accepted ((operand_eq_operandBy table).trans ran), ended]

/-- The expression is accepted where the token behind it ends it. -/
theorem accepted {p : Parser (List Token)} {rest : List Token} {bound : Precedence}
    (recognized : Expr.Recognized edge level value tokens) (standard : p.rules = .standard)
    (room : Room p.limit p.nesting level) (weak : bound < .call) (fits : edge.Fits bound)
    (ends : edge.EndsBefore bound (front rest).kind) :
    ∀ᶠ fuel in atTop, (descent fuel).expr bound (p.facing (tokens ++ rest)) =
      .accepted value (p.facing (window tokens rest)) := by
  have written := recognized.written
  have ended : ∀ᶠ fuel in atTop,
      (descent fuel).operators bound value (p.deeper.facing (window tokens rest)) =
        .accepted value (p.deeper.facing (window tokens rest)) := by
    refine eventually_of_succ (Eventually.of_forall fun fuel => operatorsStep_ended ?_)
    rw [Parser.peek_window _ written.ne_nil, Parser.rules_facing, Parser.rules_deeper, standard]
    exact ends.1
  have place : Room p.limit p.nesting 1 := room.mono (by have := written.level_pos; omega)
  refine eventually_of_succ ?_
  filter_upwards
    [recognized.leads standard room weak fits (ends.mono (fits.le_strength weak)) ended]
    with fuel ran
  change (descent fuel).exprStep bound _ = _
  rw [exprStep_room (p.facing (tokens ++ rest)) place]
  change (((descent fuel).operand >>= (descent fuel).operators bound)
    (p.deeper.facing (tokens ++ rest))).mapAfter Parser.exitNesting = _
  rw [ran]
  rfl

/-- An expression and the token that closes it. -/
theorem closed {p : Parser (List Token)} {closing : Token} {closer : Kind}
    (recognized : Expr.Recognized edge level value tokens) (standard : p.rules = .standard)
    (room : Room p.limit p.nesting level) (closes : closing.kind = closer)
    (plain : Rules.standard.level closer = .lowest) (apart : closer ≠ .elseWord)
    (rest : List Token) :
    ∀ᶠ fuel in atTop, ∀ {α : Type} (next : Expr → Token → Parse (List Token) α),
      ((descent fuel).expr .lowest >>= fun value => expect closer >>= fun closing =>
        next value closing) (p.facing (tokens ++ closing :: rest)) =
      next value closing (p.facing (closing :: rest)) := by
  have ends : edge.EndsBefore .lowest (front (closing :: rest)).kind := by
    rw [front_cons, closes]
    exact edge.endsBefore_lowest plain apart
  have written := recognized.written
  filter_upwards [recognized.accepted standard room (by decide) written.fits_lowest ends]
    with fuel ran
  intro α next
  rw [bind_accepted ran, bind_accepted (expect_accepted written.ne_nil closes)]

theorem identifier {name : Token} (named : name.kind = .identifier) :
    Expr.Recognized .closed 1 (.identifier (.ofToken name)) [name] :=
  of_operand (.identifier named) (show _ = some .identifier by simp [named, Rules.standard])
    fun _ _ _ _ => Eventually.of_forall fun _ => rfl

theorem integer {token : Token} {value : Int} (numeral : token.kind = .integer)
    (fits : Numeral.signed? token.literal = some value) :
    Expr.Recognized .closed 1 (.integer token value) [token] := by
  refine of_operand (.integer numeral fits)
    (show _ = some .integer by simp [numeral, Rules.standard]) ?_
  intro p rest _ _ _
  exact Eventually.of_forall fun _ => integer_accepted (p := p.deeper.facing (token :: rest)) fits

theorem boolean {word : Token} (truth : word.kind = .trueWord ∨ word.kind = .falseWord) :
    Expr.Recognized .closed 1 (.boolean word (word.kind = .trueWord)) [word] := by
  have begins : Rules.standard.operand word.kind = some .boolean := by
    rcases truth with truth | truth <;> simp [truth, Rules.standard]
  exact of_operand (.boolean truth) begins fun _ _ _ _ => Eventually.of_forall fun _ => rfl

theorem grouped {opening closing : Token} (opens : opening.kind = .openParen)
    (inner : Expr.Recognized edge level value tokens) (closes : closing.kind = .closeParen) :
    Expr.Recognized .closed (level + 1) value (opening :: tokens ++ [closing]) := by
  refine of_operand (.grouped opens inner.written closes)
    (show _ = some .grouping by simp [opens, Rules.standard]) ?_
  intro p rest standard room _
  filter_upwards [inner.closed (p := p.deeper) standard room.deeper closes rfl (by decide) rest]
    with fuel ran
  simp only [List.cons_append, List.append_assoc, List.nil_append]
  change (descent fuel).grouping _ = _
  rw [grouping, advance_bind, Parser.advance_facing, List.tail_cons, ran]
  rw [window_cons _ (by simp), window_concat]
  rfl

theorem unary {operator : Token} (operates : operator.kind = .not ∨ operator.kind = .minus)
    (inner : Expr.Recognized edge level value tokens) (tight : .unary ≤ edge.strength) :
    Expr.Recognized ⟨.unary, edge.dangling⟩ (level + 1) (.unary operator operator.literal value)
      (operator :: tokens) := by
  refine of_operand (.unary operates inner.written tight) (Rules.operand_unary operates) ?_
  intro p rest standard room ends
  have weak : Precedence.unary < .call := by decide
  filter_upwards [inner.accepted (p := p.deeper) standard room.deeper weak (.inr tight) ends]
    with fuel ran
  change (descent fuel).unary _ = _
  rw [Descent.unary, current_bind, advance_bind, List.cons_append, Parser.advance_facing,
    List.tail_cons, bind_accepted ran, window_cons _ inner.written.ne_nil]
  rfl

/-- The operator that the token behind the left operand stands for is taken. -/
theorem operators_taken {p : Parser (List Token)} {operator : Token} {rest : List Token}
    {rule : OperatorRule} {bound : Precedence} {whole : Expr} {after : Parser (List Token)}
    {outcome : Outcome (List Token) Expr} (standard : p.rules = .standard) (nonempty : tokens ≠ [])
    (taken : bound < Rules.standard.level operator.kind)
    (operates : Rules.standard.operator operator.kind = some rule)
    (ran : ∀ᶠ fuel in atTop,
      (descent fuel).operatorBy value (Rules.standard.level operator.kind) rule
      (p.facing (operator :: rest)) = .accepted whole after)
    (behind : ∀ᶠ fuel in atTop, (descent fuel).operators bound whole after = outcome) :
    ∀ᶠ fuel in atTop,
      (descent fuel).operators bound value (p.facing (window tokens (operator :: rest))) =
        outcome := by
  have held := Parser.peek_window p nonempty (operator :: rest)
  have table : (p.facing (window tokens (operator :: rest))).rules = .standard := standard
  refine eventually_of_succ ?_
  filter_upwards [ran, behind] with fuel ran ended
  change (descent fuel).operatorsStep bound value _ = _
  rw [operatorsStep_taken (by rwa [held, table]) (by rwa [held, table]), held, table,
    Parser.advance_window _ nonempty]
  exact (bind_accepted ran).trans ended

theorem binary {operator : Token} {before after : Edge} {level deep : Nat}
    {left right : Expr} {tokens others : List Token}
    (operates : Rules.standard.operator operator.kind = some .binary)
    (first : Expr.Recognized before level left tokens)
    (loose : Rules.standard.level operator.kind ≤ before.strength)
    (second : Expr.Recognized after deep right others)
    (tight : Rules.standard.level operator.kind < after.strength) :
    Expr.Recognized ⟨Rules.standard.level operator.kind, after.dangling⟩ (max level (deep + 1))
      (.binary operator operator.literal left right) (tokens ++ operator :: others) := by
  refine ⟨.binary operates first.written loose second.written tight, ?_⟩
  intro p rest bound outcome standard room weak fits ends behind
  have ⟨above, below⟩ := Rules.level_binary operates
  have taken : bound < Rules.standard.level operator.kind :=
    fits.elim id fun high => absurd below (Precedence.not_lt.mpr high)
  have between : before.EndsBefore before.strength operator.kind := by
    refine ⟨loose, fun _ same => ?_⟩
    rw [same] at operates
    cases operates
  have place : Room p.deeper.limit p.deeper.nesting deep := Room.deeper (room.mono (by omega))
  rw [List.append_assoc, List.cons_append]
  rw [window_append_cons, window_cons _ second.written.ne_nil] at behind
  refine first.leads standard (room.mono (by omega)) weak (.inl (Nat.lt_of_lt_of_le taken loose))
    between (operators_taken standard first.written.ne_nil taken operates ?_ behind)
  filter_upwards [second.accepted (p := p.deeper) standard place (Nat.lt_trans below (by decide))
    (.inl tight) ends] with fuel ran
  change (descent fuel).binary _ _ _ = _
  rw [Descent.binary, current_bind, advance_bind, Parser.advance_facing, List.tail_cons,
    bind_accepted ran]
  rfl

theorem call {opening : Token} {level deep : Nat} {callee : Expr} {arguments : List Expr}
    {tokens others : List Token} (opens : opening.kind = .openParen)
    (first : Expr.Recognized edge level callee tokens) (tight : edge.strength = .call)
    (given : Expr.RecognizedArguments deep arguments others) :
    Expr.Recognized .closed (max level (deep + 1)) (.call opening callee arguments)
      (tokens ++ opening :: others) := by
  refine ⟨.call opens first.written tight given.written, ?_⟩
  intro p rest bound outcome standard room weak fits ends behind
  have level_eq : Rules.standard.level opening.kind = .call := by rw [opens]; rfl
  have operates : Rules.standard.operator opening.kind = some .call := by rw [opens]; rfl
  have between : edge.EndsBefore edge.strength opening.kind := by
    refine ⟨?_, fun _ => by simp [opens]⟩
    rw [tight]
    exact Precedence.le_call _
  have place : Room p.deeper.limit p.deeper.nesting deep := Room.deeper (room.mono (by omega))
  rw [List.append_assoc, List.cons_append]
  rw [window_append_cons, window_cons _ given.written.ne_nil] at behind
  refine first.leads standard (room.mono (by omega)) weak (.inl (by rwa [tight])) between
    (operators_taken standard first.written.ne_nil (by rwa [level_eq]) operates ?_ behind)
  filter_upwards [given.accepted (p := p.deeper) standard place opening rest] with fuel ran
  change (descent fuel).call _ _ = _
  rw [Descent.call, current_bind, bind_accepted ran]
  rfl

/-- A condition and its first branch, with whatever the second branch comes to. -/
theorem conditional_branches {p : Parser (List Token)} {word opening closing : Token} {deep : Nat}
    {consequence : Block} {alternative : Option Block} {block rest : List Token}
    {after : Parser (List Token)} (standard : p.rules = .standard)
    (opens : opening.kind = .openParen)
    (tested : Expr.Recognized edge level value tokens) (room : Room p.limit p.nesting level)
    (closes : closing.kind = .closeParen) (chosen : Block.Recognized deep consequence block)
    (space : Room p.limit p.nesting deep)
    (left : ∀ᶠ fuel in atTop, (descent fuel).alternative (p.facing (window block rest)) =
      .accepted alternative after) :
    ∀ᶠ fuel in atTop, (descent fuel).conditional
      (p.facing (word :: opening :: (tokens ++ closing :: (block ++ rest)))) =
      .accepted (.conditional word value consequence alternative) after := by
  filter_upwards [tested.closed standard room closes rfl (by decide) (block ++ rest),
    chosen.braced standard space (List.cons_ne_nil closing []) rest, left] with fuel ran ran' ended
  simp only [window_singleton] at ran'
  rw [Descent.conditional, current_bind, bind_accepted (expect_cons opens word _), advance_bind,
    Parser.advance_facing, List.tail_cons, ran, ran', bind_accepted ended]
  rfl

theorem conditional {word opening closing : Token} {deep : Nat} {consequence : Block}
    {block : List Token} (chooses : word.kind = .ifWord) (opens : opening.kind = .openParen)
    (tested : Expr.Recognized edge level value tokens) (closes : closing.kind = .closeParen)
    (chosen : Block.Recognized deep consequence block) :
    Expr.Recognized ⟨.call, true⟩ (max level deep + 1) (.conditional word value consequence none)
      (word :: opening :: tokens ++ closing :: block) := by
  refine of_operand (.conditional chooses opens tested.written closes chosen.written)
    (show _ = some .conditional by simp [chooses, Rules.standard]) ?_
  intro p rest standard room ends
  have alone : ∀ᶠ fuel in atTop, (descent fuel).alternative (p.deeper.facing (window block rest)) =
      .accepted none (p.deeper.facing (window block rest)) := by
    refine Eventually.of_forall fun fuel => ?_
    rw [alternative, peek_bind, Parser.peek_window _ chosen.written.ne_nil, if_neg (ends.2 rfl)]
    rfl
  have room := room.deeper
  filter_upwards [conditional_branches (p := p.deeper) standard opens tested
    (room.mono (by omega)) closes chosen (room.mono (by omega)) alone] with fuel ran
  change (descent fuel).conditional _ = _
  simpa [chosen.written.ne_nil] using ran

theorem choice {word opening closing otherwise : Token} {deep deeper : Nat}
    {consequence alternative : Block} {block other : List Token} (chooses : word.kind = .ifWord)
    (opens : opening.kind = .openParen) (tested : Expr.Recognized edge level value tokens)
    (closes : closing.kind = .closeParen) (chosen : Block.Recognized deep consequence block)
    (turns : otherwise.kind = .elseWord) (left : Block.Recognized deeper alternative other) :
    Expr.Recognized .closed (max level (max deep deeper) + 1)
      (.conditional word value consequence (some alternative))
      (word :: opening :: tokens ++ closing :: block ++ otherwise :: other) := by
  refine of_operand
    (.choice chooses opens tested.written closes chosen.written turns left.written)
    (show _ = some .conditional by simp [chooses, Rules.standard]) ?_
  intro p rest standard room _
  have room := room.deeper
  have branch : ∀ᶠ fuel in atTop,
      (descent fuel).alternative (p.deeper.facing (window block (otherwise :: (other ++ rest)))) =
        .accepted (some alternative) (p.deeper.facing (window other rest)) := by
    filter_upwards [left.braced (p := p.deeper) standard (room.mono (by omega))
      (List.cons_ne_nil otherwise []) rest] with fuel ran
    simp only [window_singleton] at ran
    rw [Descent.alternative, peek_bind, Parser.peek_window _ chosen.written.ne_nil, front_cons,
      if_pos turns, advance_bind, Parser.advance_window _ chosen.written.ne_nil, ran]
    rfl
  filter_upwards [conditional_branches (p := p.deeper) standard opens tested
    (room.mono (by omega)) closes chosen (room.mono (by omega)) branch] with fuel ran
  change (descent fuel).conditional _ = _
  simpa [left.written.ne_nil] using ran

theorem function {word opening : Token} {deep : Nat} {names : List Name} {body : Block}
    {tokens block : List Token} (defines : word.kind = .fnWord) (opens : opening.kind = .openParen)
    (parameters : Name.Listed names tokens) (does : Block.Recognized deep body block) :
    Expr.Recognized .closed (deep + 1) (.function word names body)
      (word :: opening :: tokens ++ block) := by
  refine of_operand (.function defines opens parameters does.written)
    (show _ = some .function by simp [defines, Rules.standard]) ?_
  intro p rest standard room _
  filter_upwards [parameters.accepted (p := p.deeper) (List.cons_ne_nil opening []) (block ++ rest),
    does.braced (p := p.deeper) standard room.deeper parameters.ne_nil rest] with fuel ran ran'
  have begun :
      expect .openParen (p.deeper.facing (word :: opening :: (tokens ++ (block ++ rest)))) =
      .accepted opening (p.deeper.facing (window [opening] (tokens ++ (block ++ rest)))) :=
    expect_cons opens word _
  simp only [List.cons_append, List.append_assoc]
  change (descent fuel).function _ = _
  rw [Descent.function, current_bind, bind_accepted begun, bind_accepted ran, ran']
  rw [window_cons _ (by simp), window_cons _ (by simp [does.written.ne_nil]),
    window_append _ does.written.ne_nil]
  rfl

end Expr.Recognized

/-! ### Lists, statements and blocks -/

section Sequences

variable {edge : Edge} {level deep : Nat}

theorem Expr.RecognizedList.single {value : Expr} {tokens : List Token}
    (only : Expr.Recognized edge level value tokens) :
    Expr.RecognizedList edge level [value] tokens := by
  refine ⟨.single only.written, ?_⟩
  intro p rest standard room ends apart
  refine eventually_of_succ ?_
  filter_upwards [only.accepted standard room (by decide) only.written.fits_lowest ends]
    with fuel ran
  change (descent fuel).argumentsStep _ = _
  rw [argumentsStep, bind_accepted ran, peek_bind, Parser.peek_window _ only.written.ne_nil,
    if_neg apart]
  rfl

theorem Expr.RecognizedList.cons {comma : Token} {last : Edge} {value : Expr} {values : List Expr}
    {tokens others : List Token} (first : Expr.Recognized edge level value tokens)
    (separated : comma.kind = .comma) (more : Expr.RecognizedList last deep values others) :
    Expr.RecognizedList last (max level deep) (value :: values) (tokens ++ comma :: others) := by
  refine ⟨.cons first.written separated more.written, ?_⟩
  intro p rest standard room ends apart
  have between : edge.EndsBefore .lowest (front (comma :: (others ++ rest))).kind := by
    rw [front_cons, separated]
    exact edge.endsBefore_lowest rfl (by decide)
  refine eventually_of_succ ?_
  filter_upwards [first.accepted standard (room.mono (by omega)) (by decide)
    first.written.fits_lowest between, more.accepted standard (room.mono (by omega)) ends apart]
    with fuel ran ran'
  rw [List.append_assoc, List.cons_append]
  change (descent fuel).argumentsStep _ = _
  rw [argumentsStep, bind_accepted ran, peek_bind, Parser.peek_window _ first.written.ne_nil,
    front_cons, if_pos separated, advance_bind, Parser.advance_window _ first.written.ne_nil,
    advance_bind, Parser.advance_facing, List.tail_cons, bind_accepted ran', window_append_cons,
    window_cons _ more.written.ne_nil]
  rfl

theorem Expr.RecognizedArguments.none {closing : Token} (closes : closing.kind = .closeParen) :
    Expr.RecognizedArguments 0 [] [closing] := by
  refine ⟨.none closes, ?_⟩
  intro p _ _ opening rest
  refine Eventually.of_forall fun fuel => ?_
  rw [argumentList, peek_bind, advance_bind, Parser.peek_facing, Parser.advance_facing,
    List.tail_cons, List.singleton_append, front_cons, if_pos closes]
  rfl

theorem Expr.RecognizedArguments.some {closing : Token} {values : List Expr} {tokens : List Token}
    (given : Expr.RecognizedList edge level values tokens) (closes : closing.kind = .closeParen) :
    Expr.RecognizedArguments level values (tokens ++ [closing]) := by
  refine ⟨.some given.written closes, ?_⟩
  intro p standard room opening rest
  have ends : edge.EndsBefore .lowest (front (closing :: rest)).kind := by
    rw [front_cons, closes]
    exact edge.endsBefore_lowest rfl (by decide)
  have apart : (front (closing :: rest)).kind ≠ .comma := by simp [closes]
  filter_upwards [given.accepted standard room ends apart] with fuel ran
  have first : (front (tokens ++ closing :: rest)).kind ≠ .closeParen := by
    rw [front_append_of_ne_nil given.written.ne_nil]
    exact given.written.front_ne rfl
  rw [List.append_assoc, List.singleton_append, argumentList, peek_bind, advance_bind,
    Parser.peek_facing, Parser.advance_facing, List.tail_cons, if_neg first, bind_accepted ran,
    bind_accepted (expect_accepted given.written.ne_nil closes)]
  rw [window_concat]
  rfl

theorem Stmt.Recognized.declaration {word name assign semicolon : Token} {value : Expr}
    {tokens : List Token} (declares : word.kind = .varWord) (named : name.kind = .identifier)
    (assigns : assign.kind = .assign) (given : Expr.Recognized edge level value tokens)
    (ends : semicolon.kind = .semicolon) :
    Stmt.Recognized none level (.declaration word (.ofToken name) value)
      (word :: name :: assign :: tokens ++ [semicolon]) := by
  refine ⟨.declaration declares named assigns given.written ends, ?_⟩
  intro p rest standard room _
  filter_upwards [given.closed standard room ends rfl (by decide) rest] with fuel ran
  have begins : Rules.standard.statement word.kind = some .declaration := by rw [declares]; rfl
  simp only [List.cons_append, List.append_assoc, List.nil_append]
  rw [statement_eq_statementBy (by rwa [Parser.rules_facing, standard])]
  change (descent fuel).declaration _ = _
  rw [Descent.declaration, current_bind, bind_accepted (expect_cons named word _),
    bind_accepted (expect_cons assigns name _), advance_bind, Parser.advance_facing, List.tail_cons,
    ran]
  rw [window_cons _ (by simp), window_cons _ (by simp), window_cons _ (by simp), window_concat]
  rfl

theorem Stmt.Recognized.ret {word semicolon : Token} {value : Expr} {tokens : List Token}
    (returns : word.kind = .returnWord) (given : Expr.Recognized edge level value tokens)
    (ends : semicolon.kind = .semicolon) :
    Stmt.Recognized none level (.ret word value) (word :: tokens ++ [semicolon]) := by
  refine ⟨.ret returns given.written ends, ?_⟩
  intro p rest standard room _
  filter_upwards [given.closed standard room ends rfl (by decide) rest] with fuel ran
  have begins : Rules.standard.statement word.kind = some .ret := by rw [returns]; rfl
  simp only [List.cons_append, List.append_assoc, List.nil_append]
  rw [statement_eq_statementBy (by rwa [Parser.rules_facing, standard])]
  change (descent fuel).ret _ = _
  rw [Descent.ret, current_bind, advance_bind, Parser.advance_facing, List.tail_cons, ran]
  rw [window_cons _ (by simp), window_concat]
  rfl

theorem Expr.Recognized.plain {value : Expr} {tokens : List Token}
    (given : Expr.Recognized edge level value tokens) {p : Parser (List Token)}
    (standard : p.rules = .standard) (fuel : Nat) (rest : List Token) :
    (descent fuel).statement (p.facing (tokens ++ rest)) =
      (descent fuel).expressionStatement (p.facing (tokens ++ rest)) := by
  have begins := Rules.statement_eq_none given.written.operand_front
  refine statement_eq_expressionStatement ?_
  rwa [Parser.rules_facing, standard, Parser.current_facing,
    front_append_of_ne_nil given.written.ne_nil]

theorem Stmt.Recognized.expression {first semicolon : Token} {value : Expr} {tokens : List Token}
    (given : Expr.Recognized edge level value (first :: tokens))
    (ends : semicolon.kind = .semicolon) :
    Stmt.Recognized none level (.expression first value) (first :: tokens ++ [semicolon]) := by
  refine ⟨.expression given.written ends, ?_⟩
  intro p rest standard room _
  have ended : edge.EndsBefore .lowest (front (semicolon :: rest)).kind := by
    rw [front_cons, ends]
    exact edge.endsBefore_lowest rfl (by decide)
  filter_upwards [given.accepted standard room (by decide) given.written.fits_lowest ended]
    with fuel ran
  rw [List.append_assoc, List.singleton_append, given.plain standard, expressionStatement,
    current_bind, bind_accepted ran, peek_bind, Parser.peek_window _ given.written.ne_nil,
    front_cons, if_pos ends, advance_bind, Parser.advance_window _ given.written.ne_nil]
  rw [window_concat]
  rfl

theorem Stmt.Recognized.bare {first : Token} {value : Expr} {tokens : List Token}
    (given : Expr.Recognized edge level value (first :: tokens))
    (block : value.endsWithBlock = true) :
    Stmt.Recognized (some edge) level (.expression first value) (first :: tokens) := by
  refine ⟨.bare given.written block, ?_⟩
  intro p rest standard room apart
  have ⟨ended, open_⟩ := apart edge rfl
  filter_upwards [given.accepted standard room (by decide) given.written.fits_lowest ended]
    with fuel ran
  rw [given.plain standard, expressionStatement, current_bind, bind_accepted ran, peek_bind,
    Parser.peek_window _ given.written.ne_nil, if_neg open_, if_pos block]
  rfl

theorem Stmt.RecognizedList.nil : Stmt.RecognizedList 0 [] [] := by
  refine ⟨.nil, ?_⟩
  intro p closing _ _ closes rest
  refine eventually_of_succ (Eventually.of_forall fun fuel => ?_)
  change (descent fuel).statementsStep _ = _
  rw [statementsStep, current_bind, List.nil_append, Parser.current_facing, front_cons,
    if_pos closes]
  rfl

theorem Stmt.RecognizedList.cons {ending : Option Edge} {statement : Stmt} {statements : List Stmt}
    {tokens others : List Token} (first : Stmt.Recognized ending level statement tokens)
    (apart : ∀ next ∈ others.head?, Apart ending next.kind)
    (more : Stmt.RecognizedList deep statements others) :
    Stmt.RecognizedList (max level deep) (statement :: statements) (tokens ++ others) := by
  refine ⟨.cons first.written apart more.written, ?_⟩
  intro p closing standard room closes rest
  have between : Apart ending (front (others ++ closing :: rest)).kind :=
    apart_front apart (apart_of_kind (.inl closes) ending)
  have ⟨inside, present⟩ := first.written.front_kind
  rw [← front_append_of_ne_nil first.written.ne_nil (others ++ closing :: rest)] at inside present
  refine eventually_of_succ ?_
  filter_upwards [first.accepted standard (room.mono (by omega)) between,
    more.accepted standard (room.mono (by omega)) closes rest] with fuel ran ran'
  rw [List.append_assoc]
  change (descent fuel).statementsStep _ = _
  rw [statementsStep, current_bind, Parser.current_facing, if_neg inside, if_neg present,
    bind_accepted ran, advance_bind, Parser.advance_window _ first.written.ne_nil,
    bind_accepted ran']
  rfl

theorem Block.Recognized.braces {opening closing : Token} {body : List Stmt} {tokens : List Token}
    (opens : opening.kind = .openCurly) (statements : Stmt.RecognizedList level body tokens)
    (closes : closing.kind = .closeCurly) :
    Block.Recognized level (.mk opening body) (opening :: tokens ++ [closing]) := by
  refine ⟨.mk opens statements.written closes, ?_⟩
  intro p standard room rest
  filter_upwards [statements.accepted (p := p.enterBlock) standard room closes rest] with fuel ran
  simp only [List.cons_append, List.append_assoc, List.nil_append]
  rw [Descent.block, current_bind, advance_bind, modify_bind, Parser.advance_facing, List.tail_cons,
    Parser.enterBlock_facing, bind_accepted ran]
  rw [window_cons _ (by simp), window_concat]
  rfl

end Sequences

mutual

theorem Expr.Written.recognized :
    ∀ {edge : Edge} {level : Nat} {value : Expr} {tokens : List Token},
    Expr.Written edge level value tokens → Expr.Recognized edge level value tokens
  | _, _, _, _, .identifier named => .identifier named
  | _, _, _, _, .integer numeral fits => .integer numeral fits
  | _, _, _, _, .boolean truth => .boolean truth
  | _, _, _, _, .grouped opens inner closes => .grouped opens inner.recognized closes
  | _, _, _, _, .unary operates inner tight => .unary operates inner.recognized tight
  | _, _, _, _, .binary operates first loose second tight =>
    .binary operates first.recognized loose second.recognized tight
  | _, _, _, _, .call opens first tight given =>
    .call opens first.recognized tight given.recognized
  | _, _, _, _, .conditional chooses opens tested closes chosen =>
    .conditional chooses opens tested.recognized closes chosen.recognized
  | _, _, _, _, .choice chooses opens tested closes chosen turns left =>
    .choice chooses opens tested.recognized closes chosen.recognized turns left.recognized
  | _, _, _, _, .function defines opens parameters does =>
    .function defines opens parameters does.recognized

theorem Expr.WrittenList.recognized : ∀ {edge : Edge} {level : Nat} {values : List Expr}
    {tokens : List Token}, Expr.WrittenList edge level values tokens →
      Expr.RecognizedList edge level values tokens
  | _, _, _, _, .single only => .single only.recognized
  | _, _, _, _, .cons first separated rest => .cons first.recognized separated rest.recognized

theorem Expr.Listed.recognized : ∀ {level : Nat} {values : List Expr} {tokens : List Token},
    Expr.Listed level values tokens → Expr.RecognizedArguments level values tokens
  | _, _, _, .none closes => .none closes
  | _, _, _, .some given closes => .some given.recognized closes

theorem Stmt.Written.recognized : ∀ {ending : Option Edge} {level : Nat} {statement : Stmt}
    {tokens : List Token}, Stmt.Written ending level statement tokens →
      Stmt.Recognized ending level statement tokens
  | _, _, _, _, .declaration declares named assigns given ends =>
    .declaration declares named assigns given.recognized ends
  | _, _, _, _, .ret returns given ends => .ret returns given.recognized ends
  | _, _, _, _, .expression given ends => .expression given.recognized ends
  | _, _, _, _, .bare given block => .bare given.recognized block

theorem Stmt.WrittenList.recognized : ∀ {level : Nat} {body : List Stmt} {tokens : List Token},
    Stmt.WrittenList level body tokens → Stmt.RecognizedList level body tokens
  | _, _, _, .nil => .nil
  | _, _, _, .cons first apart rest => .cons first.recognized apart rest.recognized

theorem Block.Written.recognized : ∀ {level : Nat} {block : Block} {tokens : List Token},
    Block.Written level block tokens → Block.Recognized level block tokens
  | _, _, _, .mk opens statements closes => .braces opens statements.recognized closes

end

end ScriptReader
