import ScriptReader.Proofs.Refusal
import ScriptReader.Proofs.Spelling

/-! # Every refusal can be completed

The tokens before the one that a refusal blames were read without a wrong turn: where no limit on
nesting is in force, some other tokens in place of the blamed one and those behind it make them a
writing. The completion is built from the refusal, from the inside out: a name where an operand is
missing, then whatever closes the constructions that are still open.
-/

namespace ScriptReader

/-- The name that stands for whatever is missing. -/
def Token.name : Token := .identifier "x"

/-- The block without statements. -/
def Block.empty : Block := .mk .openCurly []

theorem Block.written_empty : Block.Written 0 .empty [.openCurly, .closeCurly] := .mk rfl .nil rfl

theorem Expr.written_name : Expr.Written .closed 1 (.identifier (.ofToken .name)) [.name] :=
  Expr.written_identifier "x"

/-- The tokens begin a list of the given sort, which goes on with a name if there are none. -/
def Completes (tokens : List Token) (sort : List Token → Prop) : Prop :=
  ∃ more, Plain more ∧
    (tokens = [] → (front more).kind = .identifier) ∧ sort (tokens ++ more)

namespace Completes

variable {tokens : List Token} {sort other : List Token → Prop}

theorem imp (completes : Completes tokens sort) (wider : ∀ whole, sort whole → other whole) :
    Completes tokens other := by
  obtain ⟨more, plain, first, whole⟩ := completes
  exact ⟨more, plain, first, wider _ whole⟩

/-- Tokens that were complete stand in front. -/
theorem behind (completes : Completes tokens sort) {earlier : List Token} (nonempty : earlier ≠ [])
    (extend : ∀ whole, sort whole → other (earlier ++ whole)) :
    Completes (earlier ++ tokens) other := by
  obtain ⟨more, plain, _, whole⟩ := completes
  refine ⟨more, plain, fun nothing => (nonempty (List.append_eq_nil_iff.mp nothing).1).elim, ?_⟩
  rw [List.append_assoc]
  exact extend _ whole

/-- What is complete is closed by further tokens. -/
theorem before (completes : Completes tokens sort) (later : List Token)
    (plain : Plain later) (extend : ∀ whole, sort whole → other (whole ++ later)) :
    Completes tokens other := by
  obtain ⟨more, plain', first, whole⟩ := completes
  refine ⟨more ++ later, ?_, ?_, ?_⟩
  · intro token among
    exact (List.mem_append.mp among).elim (plain' token) (plain token)
  · intro nothing
    have found := first nothing
    cases more with
    | nil => cases found
    | cons => exact found
  · rw [← List.append_assoc]
    exact extend _ whole

theorem within (completes : Completes tokens sort) {earlier : List Token} (nonempty : earlier ≠ [])
    (later : List Token) (plain : Plain later)
    (extend : ∀ whole, sort whole → other (earlier ++ whole ++ later)) :
    Completes (earlier ++ tokens) other := by
  have opened : Completes (earlier ++ tokens) fun whole => other (whole ++ later) :=
    completes.behind nonempty extend
  exact opened.before later plain fun _ => id

/-- Tokens that are complete only lack what closes them. -/
theorem closed (nonempty : tokens ≠ []) (later : List Token)
    (plain : Plain later) (whole : sort (tokens ++ later)) :
    Completes tokens sort :=
  ⟨later, plain, fun nothing => (nonempty nothing).elim, whole⟩

/-- A name stands in for what is missing. -/
theorem named (whole : sort [.name]) : Completes [] sort :=
  ⟨[.name], by decide, fun _ => rfl, whole⟩

end Completes

/-- A written expression for a place that takes tighter operators than the bound. -/
def Expr.Fitting (bound : Precedence) (tokens : List Token) : Prop :=
  ∃ edge level value, Expr.Written edge level value tokens ∧ edge.Fits bound

/-- A written expression up to and with the token that closes it. -/
def Expr.ClosedBy (closer : Kind) (tokens : List Token) : Prop :=
  ∃ edge level value inner closing, Expr.Written edge level value inner ∧ closing.kind = closer ∧
    tokens = inner ++ [closing]

/-- Written arguments behind the parenthesis that opens them. -/
def Expr.ListedBehind (opening : Token) (tokens : List Token) : Prop :=
  ∃ level values listed, Expr.Listed level values listed ∧ tokens = opening :: listed

/-- Written parameters behind the parenthesis that opens them. -/
def Name.ListedBehind (opening : Token) (tokens : List Token) : Prop :=
  ∃ names listed, Name.Listed names listed ∧ tokens = opening :: listed

/-- A written block behind the token that announces it. -/
def Block.WrittenBehind (last : Token) (tokens : List Token) : Prop :=
  ∃ level block written, Block.Written level block written ∧ tokens = last :: written

section Names

theorem Name.RefusedList.completes {diagnostic : Diagnostic} {tokens : List Token}
    (refused : Name.RefusedList diagnostic tokens) :
    Completes tokens fun whole => ∃ names, Name.WrittenList names whole := by
  induction refused with
  | name => exact .named ⟨_, .single rfl⟩
  | @later name comma diagnostic tokens named separated _ ih =>
    refine ih.behind (List.cons_ne_nil name [comma]) ?_
    rintro whole ⟨names, written⟩
    exact ⟨_, .cons named separated written⟩

theorem Name.Unlisted.completes {diagnostic : Diagnostic} {tokens : List Token}
    (refused : Name.Unlisted diagnostic tokens) (opening : Token) :
    Completes (opening :: tokens) (Name.ListedBehind opening) := by
  cases refused with
  | name _ rest =>
    exact rest.completes.within (List.cons_ne_nil opening []) [.closeParen] (by decide)
      fun _ ⟨names, written⟩ => ⟨names, _, .some written rfl, rfl⟩
  | close given =>
    exact .closed (List.cons_ne_nil _ _) [.closeParen] (by decide) ⟨_, _, .some given rfl, rfl⟩

end Names

section Steps

variable {tokens others : List Token} {edge : Edge} {level : Nat}

theorem Expr.Fitting.right {operator : Token} {bound : Precedence} {left : Expr}
    (operates : Rules.standard.operator operator.kind = some .binary)
    (first : Expr.Written edge level left tokens)
    (taken : bound < Rules.standard.level operator.kind)
    (loose : Rules.standard.level operator.kind ≤ edge.strength)
    (second : Expr.Fitting (Rules.standard.level operator.kind) others) :
    Expr.Fitting bound (tokens ++ operator :: others) := by
  obtain ⟨after, deep, right, second, fits⟩ := second
  exact ⟨_, _, _, .binary operates first loose second (fits.lt operates), .inl taken⟩

theorem Expr.Fitting.arguments {opening : Token} {bound : Precedence} {callee : Expr}
    (opens : opening.kind = .openParen) (first : Expr.Written edge level callee tokens)
    (tight : edge.strength = .call) (given : Expr.ListedBehind opening others) :
    Expr.Fitting bound (tokens ++ others) := by
  obtain ⟨deep, arguments, listed, given, rfl⟩ := given
  exact ⟨_, _, _, .call opens first tight given, Edge.closed_fits bound⟩

/-- An operand may stand at every place. -/
theorem Expr.Fitting.weaken {bound : Precedence} (operand : Expr.Fitting .unary tokens) :
    Expr.Fitting bound tokens := by
  obtain ⟨edge, level, value, written, fits⟩ := operand
  exact ⟨edge, level, value, written, .inr (Edge.fits_unary_iff.mp fits)⟩

theorem Expr.Fitting.unary {operator : Token}
    (operates : operator.kind = .not ∨ operator.kind = .minus)
    (inner : Expr.Fitting .unary tokens) : Expr.Fitting .unary (operator :: tokens) := by
  obtain ⟨edge, level, value, written, fits⟩ := inner
  exact ⟨_, _, _, .unary operates written (Edge.fits_unary_iff.mp fits), .inr (Nat.le_refl 5)⟩

theorem Expr.Fitting.closedBy {bound : Precedence} {closing : Token} {closer : Kind}
    (closes : closing.kind = closer) (inner : Expr.Fitting bound tokens) :
    Expr.ClosedBy closer (tokens ++ [closing]) := by
  obtain ⟨edge, level, value, written, -⟩ := inner
  exact ⟨edge, level, value, tokens, closing, written, closes, rfl⟩

theorem Expr.Fitting.grouped {opening : Token} (opens : opening.kind = .openParen)
    (inner : Expr.ClosedBy .closeParen tokens) : Expr.Fitting .unary (opening :: tokens) := by
  obtain ⟨edge, level, value, inner, closing, written, closes, rfl⟩ := inner
  exact ⟨_, _, _, .grouped opens written closes, Edge.closed_fits _⟩

theorem Expr.Fitting.tested {word opening : Token} (chooses : word.kind = .ifWord)
    (opens : opening.kind = .openParen) (tested : Expr.ClosedBy .closeParen tokens) :
    Expr.Fitting .unary (word :: opening :: tokens ++ [.openCurly, .closeCurly]) := by
  obtain ⟨edge, level, value, inner, closing, written, closes, rfl⟩ := tested
  have whole := Expr.Written.conditional chooses opens written closes Block.written_empty
  refine ⟨⟨.call, true⟩, max level 0 + 1, .conditional word value .empty none, ?_,
    .inr (Nat.le_succ 5)⟩
  simpa using whole

theorem Expr.Fitting.chosen {word opening closing : Token} {condition : Expr}
    {block : List Token} (chooses : word.kind = .ifWord) (opens : opening.kind = .openParen)
    (tested : Expr.Written edge level condition tokens) (closes : closing.kind = .closeParen)
    (chosen : Block.WrittenBehind closing block) :
    Expr.Fitting .unary (word :: opening :: tokens ++ block) := by
  obtain ⟨deep, consequence, written, chosen, rfl⟩ := chosen
  exact ⟨_, _, _, .conditional chooses opens tested closes chosen, .inr (Nat.le_succ 5)⟩

theorem Expr.Fitting.left {word opening closing otherwise : Token} {condition : Expr}
    {deep : Nat} {consequence : Block} {block other : List Token} (chooses : word.kind = .ifWord)
    (opens : opening.kind = .openParen) (tested : Expr.Written edge level condition tokens)
    (closes : closing.kind = .closeParen) (chosen : Block.Written deep consequence block)
    (turns : otherwise.kind = .elseWord) (left : Block.WrittenBehind otherwise other) :
    Expr.Fitting .unary (word :: opening :: tokens ++ closing :: block ++ other) := by
  obtain ⟨deeper, alternative, written, left, rfl⟩ := left
  exact ⟨_, _, _, .choice chooses opens tested closes chosen turns left, Edge.closed_fits _⟩

theorem Expr.Fitting.parameters {word opening : Token} (defines : word.kind = .fnWord)
    (opens : opening.kind = .openParen) (parameters : Name.ListedBehind opening tokens) :
    Expr.Fitting .unary (word :: tokens ++ [.openCurly, .closeCurly]) := by
  obtain ⟨names, listed, parameters, rfl⟩ := parameters
  exact ⟨_, _, _, .function defines opens parameters Block.written_empty, Edge.closed_fits _⟩

theorem Expr.Fitting.does {word opening : Token} {names : List Name} {block : List Token}
    {last : Token} (defines : word.kind = .fnWord) (opens : opening.kind = .openParen)
    (parameters : Name.Listed names (tokens ++ [last])) (does : Block.WrittenBehind last block) :
    Expr.Fitting .unary (word :: opening :: tokens ++ block) := by
  obtain ⟨deep, body, written, does, rfl⟩ := does
  have whole := Expr.Written.function defines opens parameters does
  exact ⟨_, _, _, by simpa using whole, Edge.closed_fits _⟩

end Steps

/-- The brackets that a word for a condition or a function needs behind it at least. -/
def bareBrackets : List Token := [.openParen, .name, .closeParen, .openCurly, .closeCurly]

theorem Expr.Fitting.bare_conditional {word : Token} (chooses : word.kind = .ifWord) :
    Expr.Fitting .unary ([word] ++ bareBrackets) :=
  Expr.Fitting.tested chooses (show Token.openParen.kind = .openParen from rfl)
    ⟨_, _, _, [.name], .closeParen, Expr.written_name, rfl, rfl⟩

theorem Expr.Fitting.bare_function {word : Token} (defines : word.kind = .fnWord) :
    Expr.Fitting .unary ([word] ++ bareBrackets) := by
  have parameters := Name.Listed.some (.single (show Token.name.kind = .identifier from rfl))
    (show Token.closeParen.kind = .closeParen from rfl)
  exact ⟨_, _, _, .function defines (show Token.openParen.kind = .openParen from rfl) parameters
    Block.written_empty, Edge.closed_fits _⟩

theorem Expr.Written.expression {edge : Edge} {level : Nat} {value : Expr} {tokens : List Token}
    (written : Expr.Written edge level value tokens) :
    ∃ level statement, Stmt.Written none level statement (tokens ++ [.semicolon]) := by
  obtain ⟨first, rest, rfl⟩ := List.exists_cons_of_ne_nil written.ne_nil
  exact ⟨level, .expression first value, .expression written rfl⟩

theorem Stmt.Written.singleton {level : Nat} {statement : Stmt} {tokens : List Token}
    {ending : Option Edge} (written : Stmt.Written ending level statement tokens) :
    ∃ level statements, Stmt.WrittenList level statements tokens := by
  have list := Stmt.WrittenList.cons written (by simp) .nil
  exact ⟨_, _, by simpa using list⟩

/-- A statement that was complete before the blamed token is complete before a name as well. -/
theorem apart_more {ending : Option Edge} {token : Token} {others more : List Token}
    (apart : Apart ending (front (others ++ [token])).kind)
    (named : others = [] → (front more).kind = .identifier) :
    ∀ next ∈ (others ++ more).head?, Apart ending next.kind := by
  cases others with
  | nil =>
    cases more with
    | nil => simp
    | cons first more =>
      rintro next found
      obtain rfl : first = next := by simpa using found
      have named : first.kind = .identifier := named rfl
      rw [named]
      exact apart_of_kind (.inr (.inr rfl)) ending
  | cons first others =>
    rintro next found
    obtain rfl : first = next := by simpa using found
    exact apart

mutual

theorem Expr.Refused.completes : ∀ {nest : Nat} {bound : Precedence} {count : Nat}
    {diagnostic : Diagnostic} {tokens : List Token},
    Expr.Refused none nest bound count diagnostic tokens → Completes tokens (Expr.Fitting bound)
  | _, _, _, _, _, .tooDeep limited _ => nomatch limited
  | _, _, _, _, _, .operand _ inner => inner.completes.imp fun _ => Expr.Fitting.weaken
  | _, _, _, _, _, .right operates first _ taken loose second => by
    rw [List.append_cons]
    refine second.completes.behind (by simp) fun whole fitting => ?_
    rw [← List.append_cons]
    exact .right operates first taken loose fitting
  | _, _, _, _, _, .arguments opens first _ _ tight given =>
    (given.completes _).behind first.ne_nil fun _ => .arguments opens first tight

theorem Expr.RefusedOperand.completes : ∀ {nest count : Nat} {diagnostic : Diagnostic}
    {tokens : List Token},
    Expr.RefusedOperand none nest count diagnostic tokens → Completes tokens (Expr.Fitting .unary)
  | _, _, _, _, .start _ => .named ⟨_, _, _, Expr.written_name, Edge.closed_fits _⟩
  | _, _, _, _, .integer _ _ => .named ⟨_, _, _, Expr.written_name, Edge.closed_fits _⟩
  | _, _, _, _, .unary operates inner =>
    inner.completes.behind (List.cons_ne_nil _ []) fun _ => .unary operates
  | _, _, _, _, .grouped opens inner =>
    (inner.completes (by decide)).behind (List.cons_ne_nil _ []) fun _ => .grouped opens
  | _, _, _, _, .condition chooses _ =>
    .closed (List.cons_ne_nil _ []) bareBrackets (by decide) (.bare_conditional chooses)
  | _, _, _, _, .tested chooses opens inner =>
    (inner.completes (by decide)).within (List.cons_ne_nil _ [_]) [.openCurly, .closeCurly]
      (by decide) fun _ => .tested chooses opens
  | _, _, _, _, .chosen chooses opens tested _ closes inner =>
    (inner.completes _).behind (by simp) fun _ => .chosen chooses opens tested closes
  | _, _, _, _, .left chooses opens tested _ closes chosen _ turns inner =>
    (inner.completes _).behind (by simp) fun _ =>
      .left chooses opens tested closes chosen turns
  | _, _, _, _, .function defines _ =>
    .closed (List.cons_ne_nil _ []) bareBrackets (by decide) (.bare_function defines)
  | _, _, _, _, .parameters defines opens inner =>
    (inner.completes _).within (List.cons_ne_nil _ []) [.openCurly, .closeCurly] (by decide)
      fun _ => .parameters defines opens
  | _, _, _, _, .does defines opens parameters inner => by
    obtain ⟨earlier, last, rfl⟩ := List.eq_nil_or_concat' _ |>.resolve_left parameters.ne_nil
    rw [List.cons_append, List.cons_append, List.append_assoc, List.singleton_append]
    exact (inner.completes last).behind (List.cons_ne_nil _ (_ :: earlier)) fun _ =>
      .does defines opens parameters

theorem Expr.Unclosed.completes : ∀ {nest : Nat} {closer : Kind} {count : Nat}
    {diagnostic : Diagnostic} {tokens : List Token},
    Expr.Unclosed none nest closer count diagnostic tokens → closer ≠ .endOfInput →
    Completes tokens (Expr.ClosedBy closer)
  | _, closer, _, _, _, .inner inner, present =>
    inner.completes.before [⟨closer, ""⟩] (by simpa [Plain] using present) fun _ =>
      Expr.Fitting.closedBy rfl
  | _, closer, _, _, _, .close given _ _ _, present =>
    .closed given.ne_nil [⟨closer, ""⟩] (by simpa [Plain] using present)
      ⟨_, _, _, _, _, given, rfl, rfl⟩

theorem Expr.RefusedList.completes : ∀ {nest count : Nat} {diagnostic : Diagnostic}
    {tokens : List Token}, Expr.RefusedList none nest count diagnostic tokens →
    Completes tokens fun whole => ∃ edge level values, Expr.WrittenList edge level values whole
  | _, _, _, _, .first inner =>
    inner.completes.imp fun _ ⟨_, _, _, written, _⟩ => ⟨_, _, _, .single written⟩
  | _, _, _, _, .later first _ separated rest => by
    rw [List.append_cons]
    refine rest.completes.behind (by simp) fun whole ⟨_, _, _, written⟩ => ?_
    rw [← List.append_cons]
    exact ⟨_, _, _, .cons first separated written⟩

theorem Expr.Unlisted.completes : ∀ {nest count : Nat} {diagnostic : Diagnostic}
    {tokens : List Token}, Expr.Unlisted none nest count diagnostic tokens → ∀ opening,
    Completes (opening :: tokens) (Expr.ListedBehind opening)
  | _, _, _, _, .argument _ rest, opening =>
    rest.completes.within (List.cons_ne_nil opening []) [.closeParen] (by decide)
      fun _ ⟨_, _, _, written⟩ => ⟨_, _, _, .some written rfl, rfl⟩
  | _, _, _, _, .close given _ _ _ _, opening =>
    .closed (List.cons_ne_nil _ _) [.closeParen] (by decide) ⟨_, _, _, .some given rfl, rfl⟩

theorem Stmt.Refused.completes : ∀ {nest count : Nat} {diagnostic : Diagnostic}
    {tokens : List Token}, Stmt.Refused none nest count diagnostic tokens →
    Completes tokens fun whole => ∃ level statement, Stmt.Written none level statement whole
  | _, _, _, _, .name declares _ =>
    .closed (List.cons_ne_nil _ []) [.name, .assign, .name, .semicolon] (by decide)
      ⟨_, _, .declaration declares (show Token.name.kind = .identifier from rfl)
        (show Token.assign.kind = .assign from rfl) Expr.written_name
        (show Token.semicolon.kind = .semicolon from rfl)⟩
  | _, _, _, _, .assign declares named _ =>
    .closed (List.cons_ne_nil _ _) [.assign, .name, .semicolon] (by decide)
      ⟨_, _, .declaration declares named
        (show Token.assign.kind = .assign from rfl) Expr.written_name
        (show Token.semicolon.kind = .semicolon from rfl)⟩
  | _, _, _, _, .declaration declares named assigns inner =>
    (inner.completes (by decide)).behind (List.cons_ne_nil _ [_, _])
      fun _ ⟨_, _, _, _, _, written, ends, same⟩ =>
        same ▸ ⟨_, _, .declaration declares named assigns written ends⟩
  | _, _, _, _, .ret returns inner =>
    (inner.completes (by decide)).behind (List.cons_ne_nil _ [])
      fun _ ⟨_, _, _, _, _, written, ends, same⟩ => same ▸ ⟨_, _, .ret returns written ends⟩
  | _, _, _, _, .expression _ inner =>
    inner.completes.before [.semicolon] (by decide) fun _ ⟨_, _, _, written, _⟩ =>
      written.expression
  | _, _, _, _, .semicolon given _ _ _ _ =>
    .closed given.ne_nil [.semicolon] (by decide) given.expression

theorem Stmt.RefusedList.completes : ∀ {closer : Kind} {nest count : Nat} {diagnostic : Diagnostic}
    {tokens : List Token}, Stmt.RefusedList none closer nest count diagnostic tokens →
    Completes tokens fun whole => ∃ level statements, Stmt.WrittenList level statements whole
  | _, _, _, _, _, .first _ _ inner =>
    inner.completes.imp fun _ ⟨_, _, written⟩ => written.singleton
  | _, _, _, _, _, .later first _ apart rest => by
    obtain ⟨more, plain, named, _, _, behind⟩ := rest.completes
    refine ⟨more, plain, fun nothing => ?_, ?_⟩
    · exact (first.ne_nil (List.append_eq_nil_iff.mp nothing).1).elim
    · have list := Stmt.WrittenList.cons first (apart_more apart named) behind
      exact ⟨_, _, by rwa [List.append_assoc]⟩

theorem Block.Refused.completes : ∀ {nest count : Nat} {diagnostic : Diagnostic}
    {tokens : List Token}, Block.Refused none nest count diagnostic tokens → ∀ last,
    Completes (last :: tokens) (Block.WrittenBehind last)
  | _, _, _, _, .brace _, last =>
    .closed (List.cons_ne_nil _ []) [.openCurly, .closeCurly] (by decide)
      ⟨_, _, _, Block.written_empty, rfl⟩
  | _, _, _, _, .statement opens body, last =>
    body.completes.within (List.cons_ne_nil last [_]) [.closeCurly] (by decide)
      fun _ ⟨_, _, written⟩ => ⟨_, _, _, .mk opens written rfl, rfl⟩
  | _, _, _, _, .close opens given _ _, last =>
    .closed (List.cons_ne_nil _ _) [.closeCurly] (by decide)
      ⟨_, _, _, .mk opens given rfl, rfl⟩

end

end ScriptReader
