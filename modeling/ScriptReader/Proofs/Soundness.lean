import ScriptReader.Proofs.Reads

/-! # Every rule accepts a writing or refuses

With the rules of the language and enough fuel, every rule comes to an end. What it accepts is a
writing of the tree it answers, and where it stops the tokens before the one it blames are a
refusal. The proof goes rule by rule over the five recursive places and ties them together by
induction on the fuel.
-/

namespace ScriptReader

/-- The tokens are a writing of the expression that may stand at a place for tighter operators than
`bound`, has room there and is not continued by the token behind it. -/
def Expr.ReadAt (p : Parser (List Token)) (bound : Precedence) (value : Expr) (tokens : List Token)
    (next : Token) : Prop :=
  ∃ edge level, Expr.Written edge level value tokens ∧ edge.Fits bound ∧
    Room p.limit p.nesting level ∧ edge.EndsBefore bound next.kind

/-- The same of an operand, which tighter operators may still continue. -/
def Expr.OperandAt (p : Parser (List Token)) (value : Expr) (tokens : List Token) (next : Token) :
    Prop :=
  ∃ edge level, Expr.Written edge level value tokens ∧ .unary ≤ edge.strength ∧
    Room p.limit p.nesting level ∧ edge.EndsBefore edge.strength next.kind

/-- The tokens are a writing of the statement that has room and is complete before the token behind
it. -/
def Stmt.ReadAt (p : Parser (List Token)) (statement : Stmt) (tokens : List Token) (next : Token) :
    Prop :=
  ∃ ending level, Stmt.Written ending level statement tokens ∧ Room p.limit p.nesting level ∧
    Apart ending next.kind

/-- The statements of a block, up to and with its closing brace. -/
def Stmt.BodyAt (p : Parser (List Token)) (body : List Stmt) (tokens : List Token) : Prop :=
  ∃ level inner closing, tokens = inner ++ [closing] ∧ closing.kind = .closeCurly ∧
    Stmt.WrittenList level body inner ∧ Room p.limit p.nesting level

/-- The statements of a block up to one that is refused, or up to the end of input. -/
def Stmt.Unended (p : Parser (List Token)) (count : Nat) (diagnostic : Diagnostic)
    (tokens : List Token) : Prop :=
  Stmt.RefusedList p.limit .closeCurly p.nesting count diagnostic tokens ∨
    count = 0 ∧ ∃ level body token, Stmt.WrittenList level body tokens ∧
      Room p.limit p.nesting level ∧ token.kind = .endOfInput ∧
      diagnostic = .unexpected .closeCurly token

/-- At each recursive place, a list that is short enough for the fuel is read to the end. -/
structure Descent.Judges (d : Descent (List Token)) (fuel : Nat) : Prop where
  expr {p : Parser (List Token)} {read ahead : List Token} (bound : Precedence)
    (standard : p.rules = .standard) (short : 3 * ahead.length + 1 ≤ fuel) :
    (d.expr bound (p.facing ahead)).Reads p read ahead (Expr.ReadAt p bound)
      (Expr.Refused p.limit p.nesting bound)
  operators {p : Parser (List Token)} {read ahead : List Token} {bound : Precedence} {edge : Edge}
    {level : Nat} {left : Expr} {tokens : List Token} (standard : p.rules = .standard)
    (short : 3 * ahead.length + 1 ≤ fuel) (nonempty : read ≠ [])
    (written : Expr.Written edge level left tokens) (fits : edge.Fits bound)
    (room : Room p.limit p.nesting level)
    (ends : edge.EndsBefore edge.strength (front ahead).kind) :
    (d.operators bound left (p.deeper.facing (window read ahead))).Reads p.deeper read ahead
      (fun value taken next => Expr.ReadAt p bound value (tokens ++ taken) next)
      fun count diagnostic taken =>
        Expr.Refused p.limit p.nesting bound count diagnostic (tokens ++ taken)
  arguments {p : Parser (List Token)} {read ahead : List Token} (standard : p.rules = .standard)
    (short : 3 * ahead.length + 2 ≤ fuel) :
    (d.arguments (p.facing ahead)).Reads p read ahead
      (fun values taken next => ∃ edge level, Expr.WrittenList edge level values taken ∧
        Room p.limit p.nesting level ∧ edge.EndsBefore .lowest next.kind ∧ next.kind ≠ .comma)
      (Expr.RefusedList p.limit p.nesting)
  parameters {p : Parser (List Token)} {read ahead : List Token} (nonempty : read ≠ [])
    (short : 3 * ahead.length + 1 ≤ fuel) :
    (d.parameters (p.facing (window read ahead))).Reads p read ahead
      (fun names taken next => Name.WrittenList names taken ∧ next.kind ≠ .comma)
      fun count diagnostic taken => count = 0 ∧ Name.RefusedList diagnostic taken
  statements {p : Parser (List Token)} {read ahead : List Token} (standard : p.rules = .standard)
    (room : Room p.limit p.nesting 0) (short : 3 * ahead.length + 2 ≤ fuel) :
    (d.statements (p.facing ahead)).Reads p read ahead
      (fun body taken _ => Stmt.BodyAt p body taken) (Stmt.Unended p)

namespace Descent.Judges

open Parse Outcome

variable {α : Type} {d : Descent (List Token)} {fuel : Nat} {p : Parser (List Token)}
  {read ahead : List Token}

/-- An expression and the token that closes it. -/
theorem closing (j : d.Judges fuel) {closer : Kind} {next : Expr → Token → Parse (List Token) α}
    {good : α → List Token → Token → Prop} {bad : Nat → Diagnostic → List Token → Prop}
    (standard : p.rules = .standard) (short : 3 * ahead.length + 1 ≤ fuel)
    (present : closer ≠ .endOfInput) (inner : closer ≠ .closeCurly)
    (refused : ∀ count diagnostic taken,
      Expr.Unclosed p.limit p.nesting closer count diagnostic taken → bad count diagnostic taken)
    (tail : ∀ value edge level closing tokens rest, ahead = tokens ++ closing :: rest →
      closing.kind = closer → Expr.Written edge level value tokens → Room p.limit p.nesting level →
      (next value closing (p.facing (window (read ++ (tokens ++ [closing])) rest))).Reads p
        (read ++ (tokens ++ [closing])) rest
        (fun result more => good result (tokens ++ [closing] ++ more))
        fun count diagnostic more => bad count diagnostic (tokens ++ [closing] ++ more)) :
    ((d.expr .lowest >>= fun value => expect closer >>= fun closing => next value closing)
      (p.facing ahead)).Reads p read ahead good bad := by
  refine (j.expr .lowest standard short).bind
    (fun count diagnostic taken _ _ _ refusal => refused _ _ _ (.inner refusal)) ?_
  rintro value tokens rest rfl ⟨edge, level, written, -, room, ends⟩
  have nonempty : read ++ tokens ≠ [] := List.append_ne_nil_of_right_ne_nil _ written.ne_nil
  refine (Reads.expect nonempty present inner).bind ?_ ?_
  · rintro _ _ _ rest' rfl blame ⟨rfl, rfl, token, other, rfl⟩
    obtain rfl : token = front rest' := blame
    simpa using refused _ _ _ (.close written room ends other)
  · rintro closing _ rest' rfl ⟨closes, rfl⟩
    simpa using
      tail value edge level closing tokens rest' (by simp) closes written room

theorem block (j : d.Judges fuel) {opening : Token} (standard : p.rules = .standard)
    (place : Room p.limit p.nesting 0) (opens : opening.kind = .openCurly)
    (short : 3 * ahead.length + 2 ≤ fuel) :
    (d.block (p.facing (opening :: ahead))).Reads p (read ++ [opening]) ahead
      (fun block taken _ => ∃ level, Block.Written level block (opening :: taken) ∧
        Room p.limit p.nesting level)
      fun count diagnostic taken =>
        Block.Refused p.limit p.nesting count diagnostic (opening :: taken) := by
  have inside := @j.statements p.enterBlock (read ++ [opening]) ahead standard place short
  rw [Descent.block, current_bind, advance_bind, Parser.advance_facing, modify_bind,
    Parser.enterBlock_facing, List.tail_cons]
  cases ran : d.statements (p.enterBlock.facing ahead) with
  | accepted body after =>
    rw [ran] at inside
    obtain ⟨_, rest, rfl, ⟨level, inner, closing, rfl, closes, written, room⟩, rfl⟩ := inside
    rw [bind_accepted ran]
    exact ⟨inner ++ [closing], rest, rfl, ⟨level, .mk opens written closes, room⟩, rfl⟩
  | rejected diagnostic after =>
    rw [ran] at inside
    obtain ⟨count, taken, rest, rfl, blame, refusal, rfl⟩ := inside
    rw [bind_rejected ran, Parser.enterBlock_opened]
    refine ⟨count + 1, taken, rest, rfl, blame, ?_, rfl⟩
    rcases refusal with refusal | ⟨rfl, level, body, token, written, room, ended, rfl⟩
    · exact .statement opens refusal
    · exact .close opens written room ended
  | unfinished => rw [ran] at inside; exact inside.elim

/-- The braces of a block, the first of which is asked for. -/
theorem braced (j : d.Judges fuel) {next : Block → Parse (List Token) α}
    {good : α → List Token → Token → Prop} {bad : Nat → Diagnostic → List Token → Prop}
    (standard : p.rules = .standard) (place : Room p.limit p.nesting 0) (nonempty : read ≠ [])
    (short : 3 * ahead.length ≤ fuel)
    (refused : ∀ count diagnostic taken,
      Block.Refused p.limit p.nesting count diagnostic taken → bad count diagnostic taken)
    (tail : ∀ block level tokens rest, ahead = tokens ++ rest → Block.Written level block tokens →
      Room p.limit p.nesting level →
      (next block (p.facing (window (read ++ tokens) rest))).Reads p (read ++ tokens) rest
        (fun result more => good result (tokens ++ more))
        fun count diagnostic more => bad count diagnostic (tokens ++ more)) :
    ((expect .openCurly >>= fun _ => d.block >>= next) (p.facing (window read ahead))).Reads p read
      ahead good bad := by
  refine (Reads.expect nonempty (by decide) (by decide)).bind ?_ ?_
  · rintro _ _ _ _ _ _ ⟨rfl, rfl, token, other, rfl⟩
    exact refused _ _ _ (.brace other)
  · rintro opening _ rest rfl ⟨opens, rfl⟩
    rw [window_append_cons]
    refine (j.block standard place opens (by simp at short; omega)).bind ?_ ?_
    · rintro count diagnostic taken _ _ _ refusal
      exact refused _ _ _ refusal
    · rintro block tokens rest' rfl ⟨level, written, room⟩
      simpa using tail block level (opening :: tokens) rest' rfl written room

theorem alternative (j : d.Judges fuel) (standard : p.rules = .standard)
    (place : Room p.limit p.nesting 0) (nonempty : read ≠ []) (short : 3 * ahead.length ≤ fuel) :
    (d.alternative (p.facing (window read ahead))).Reads p read ahead
      (fun alternative taken next => (alternative = none ∧ taken = [] ∧ next.kind ≠ .elseWord) ∨
        ∃ block level otherwise tokens, alternative = some block ∧ taken = otherwise :: tokens ∧
          otherwise.kind = .elseWord ∧ Block.Written level block tokens ∧
          Room p.limit p.nesting level)
      fun count diagnostic taken => ∃ otherwise tokens, taken = otherwise :: tokens ∧
        otherwise.kind = .elseWord ∧
        Block.Refused p.limit p.nesting count diagnostic tokens := by
  rw [Descent.alternative, peek_bind, Parser.peek_window _ nonempty]
  by_cases found : (front ahead).kind = .elseWord
  · obtain ⟨otherwise, rest, rfl, turns⟩ := exists_cons_of_front found (by decide)
    rw [if_pos found, advance_bind, Parser.advance_window _ nonempty]
    refine Reads.shift (show _ = [otherwise] ++ rest from rfl) ?_
    rw [show otherwise :: rest = window (read ++ [otherwise]) rest by simp]
    refine j.braced standard place (by simp) (by simp at short; omega) ?_ ?_
    · rintro count diagnostic taken refusal
      exact ⟨otherwise, taken, rfl, turns, refusal⟩
    · rintro block level tokens _ rfl written room
      exact Reads.pure (.inr ⟨block, level, otherwise, tokens, rfl, by simp, turns, written, room⟩)
  · rw [if_neg found]
    exact Reads.pure (.inl ⟨rfl, rfl, found⟩)

theorem conditional (j : d.Judges fuel) {word : Token} (standard : p.rules = .standard)
    (place : Room p.deeper.limit p.deeper.nesting 0) (chooses : word.kind = .ifWord)
    (short : 3 * ahead.length ≤ fuel) :
    (d.conditional (p.deeper.facing (word :: ahead))).Reads p.deeper (read ++ [word]) ahead
      (fun value taken next => Expr.OperandAt p value (word :: taken) next)
      fun count diagnostic taken =>
        Expr.RefusedOperand p.limit (p.nesting + 1) count diagnostic (word :: taken) := by
  rw [Descent.conditional, current_bind, show word :: ahead = window (read ++ [word]) ahead by simp]
  refine (Reads.expect (by simp) (by decide) (by decide)).bind ?_ ?_
  · rintro _ _ _ _ _ _ ⟨rfl, rfl, token, other, rfl⟩
    exact .condition chooses other
  rintro opening _ rest rfl ⟨opens, rfl⟩
  rw [advance_bind, Parser.advance_window _ (by simp)]
  refine j.closing standard (by simp at short; omega) (by decide) (by decide) ?_ ?_
  · rintro count diagnostic taken refusal
    exact .tested chooses opens refusal
  rintro condition edge level closing tokens rest rfl closes tested room
  refine j.braced standard place (by simp) (by simp at short; omega) ?_ ?_
  · rintro count diagnostic taken refusal
    simpa using Expr.RefusedOperand.chosen chooses opens tested room closes refusal
  rintro consequence deep block rest rfl chosen space
  refine Reads.bind (j.alternative standard place (by simp) (by simp at short; omega)) ?_ ?_
  · rintro count diagnostic _ _ _ _ ⟨otherwise, other, rfl, turns, refusal⟩
    simpa using Expr.RefusedOperand.left chooses opens tested room closes chosen space turns refusal
  rintro alternative _ rest rfl
    (⟨rfl, rfl, apart⟩ | ⟨other, deeper, otherwise, last, rfl, rfl, turns, left, last_room⟩)
  · refine Reads.pure ⟨⟨.call, true⟩, max level deep + 1, ?_, Nat.le_succ 5, ?_, ?_⟩
    · simpa using Expr.Written.conditional chooses opens tested closes chosen
    · exact (room.max space).mono (by simp; omega)
    · exact ⟨Precedence.le_call _, fun _ => apart⟩
  · refine Reads.pure ⟨.closed, max level (max deep deeper) + 1, ?_, Nat.le_succ 5, ?_, ?_⟩
    · simpa using Expr.Written.choice chooses opens tested closes chosen turns left
    · exact (room.max (space.max last_room)).mono (by simp; omega)
    · exact Edge.closed_endsBefore _

theorem parametersStep (j : d.Judges fuel) (nonempty : read ≠ [])
    (short : 3 * ahead.length ≤ fuel) :
    (d.parametersStep (p.facing (window read ahead))).Reads p read ahead
      (fun names taken next => Name.WrittenList names taken ∧ next.kind ≠ .comma)
      fun count diagnostic taken => count = 0 ∧ Name.RefusedList diagnostic taken := by
  refine Reads.bind (Reads.expect nonempty (by decide) (by decide)) ?_ ?_
  · rintro _ _ _ _ _ _ ⟨rfl, rfl, token, other, rfl⟩
    exact ⟨rfl, .name other⟩
  rintro name _ rest rfl ⟨named, rfl⟩
  rw [peek_bind, Parser.peek_window _ (by simp)]
  by_cases found : (front rest).kind = .comma
  · obtain ⟨comma, rest, rfl, separated⟩ := exists_cons_of_front found (by decide)
    rw [if_pos found, advance_bind, Parser.advance_window _ (by simp)]
    refine Reads.shift (show _ = [comma] ++ rest from rfl) ?_
    rw [show comma :: rest = window (read ++ [name] ++ [comma]) rest by simp]
    refine Reads.bind (j.parameters (by simp) (by simp at short; omega)) ?_ ?_
    · rintro count diagnostic taken _ _ _ ⟨rfl, refusal⟩
      exact ⟨rfl, .later named separated refusal⟩
    · rintro names tokens _ rfl ⟨written, apart⟩
      exact Reads.pure ⟨by simpa using .cons named separated written, apart⟩
  · rw [if_neg found]
    exact Reads.pure ⟨.single named, found⟩

theorem parameterList (j : d.Judges fuel) (nonempty : read ≠ [])
    (short : 3 * ahead.length + 1 ≤ fuel) :
    (d.parameterList (p.facing (window read ahead))).Reads p read ahead
      (fun names taken _ => Name.Listed names taken)
      fun count diagnostic taken => count = 0 ∧ Name.Unlisted diagnostic taken := by
  rw [Descent.parameterList, peek_bind, Parser.peek_window _ nonempty]
  by_cases found : (front ahead).kind = .closeParen
  · obtain ⟨closing, rest, rfl, closes⟩ := exists_cons_of_front found (by decide)
    rw [if_pos found, advance_bind, Parser.advance_window _ nonempty]
    refine Reads.shift (show _ = [closing] ++ rest from rfl) ?_
    rw [show closing :: rest = window (read ++ [closing]) rest by simp]
    exact Reads.pure (.none closes)
  · rw [if_neg found]
    refine Reads.bind (j.parameters nonempty short) ?_ ?_
    · rintro count diagnostic taken rest rfl blame ⟨rfl, refusal⟩
      rw [front_append_eq, ← blame] at found
      exact ⟨rfl, .name found refusal⟩
    · rintro names tokens rest rfl ⟨written, apart⟩
      refine Reads.bind (Reads.expect (by simp [nonempty]) (by decide) (by decide)) ?_ ?_
      · rintro _ _ _ rest' rfl blame ⟨rfl, rfl, token, other, rfl⟩
        obtain rfl : token = front rest' := blame
        exact ⟨rfl, by simpa using .close written apart other⟩
      · rintro closing _ rest' rfl ⟨closes, rfl⟩
        exact Reads.pure (by simpa using .some written closes)

theorem function (j : d.Judges fuel) {word : Token} (standard : p.rules = .standard)
    (place : Room p.deeper.limit p.deeper.nesting 0) (defines : word.kind = .fnWord)
    (short : 3 * ahead.length ≤ fuel) :
    (d.function (p.deeper.facing (word :: ahead))).Reads p.deeper (read ++ [word]) ahead
      (fun value taken next => Expr.OperandAt p value (word :: taken) next)
      fun count diagnostic taken =>
        Expr.RefusedOperand p.limit (p.nesting + 1) count diagnostic (word :: taken) := by
  rw [Descent.function, current_bind, show word :: ahead = window (read ++ [word]) ahead by simp]
  refine Reads.bind (Reads.expect (by simp) (by decide) (by decide)) ?_ ?_
  · rintro _ _ _ _ _ _ ⟨rfl, rfl, token, other, rfl⟩
    exact .function defines other
  rintro opening _ rest rfl ⟨opens, rfl⟩
  refine Reads.bind (j.parameterList (by simp) (by simp at short; omega)) ?_ ?_
  · rintro _ diagnostic taken _ _ _ ⟨rfl, refusal⟩
    exact .parameters defines opens refusal
  rintro names tokens rest rfl parameters
  refine j.braced standard place (by simp) (by simp at short; omega) ?_ ?_
  · rintro count diagnostic taken refusal
    simpa using Expr.RefusedOperand.does defines opens parameters refusal
  · rintro body level block rest rfl written room
    refine Reads.pure ⟨.closed, level + 1, ?_, Nat.le_succ 5, room.mono (by simp; omega), ?_⟩
    · simpa using Expr.Written.function defines opens parameters written
    · exact Edge.closed_endsBefore _

/-- An operand of a single token that is always accepted. -/
theorem atom {token : Token} {value : Expr} (written : Expr.Written .closed 1 value [token])
    (room : Room p.limit p.nesting 1) :
    (Outcome.accepted value (p.deeper.facing (token :: ahead))).Reads p.deeper read (token :: ahead)
      (Expr.OperandAt p) (Expr.RefusedOperand p.limit (p.nesting + 1)) :=
  ⟨[token], ahead, rfl, ⟨.closed, 1, written, Nat.le_succ 5, room, Edge.closed_endsBefore _⟩,
    by simp⟩

theorem unary (j : d.Judges fuel) {operator : Token} (standard : p.rules = .standard)
    (operates : operator.kind = .not ∨ operator.kind = .minus)
    (short : 3 * ahead.length + 1 ≤ fuel) :
    (d.unary (p.deeper.facing (operator :: ahead))).Reads p.deeper (read ++ [operator]) ahead
      (fun value taken next => Expr.OperandAt p value (operator :: taken) next)
      fun count diagnostic taken =>
        Expr.RefusedOperand p.limit (p.nesting + 1) count diagnostic (operator :: taken) := by
  rw [Descent.unary, current_bind, advance_bind, Parser.advance_facing, List.tail_cons]
  refine Reads.bind (j.expr .unary standard (by omega)) ?_ ?_
  · rintro count diagnostic taken _ _ _ refusal
    exact .unary operates refusal
  · rintro operand tokens rest rfl ⟨edge, level, written, fits, room, ends⟩
    have tight := Edge.fits_unary_iff.mp fits
    refine Reads.pure ⟨⟨.unary, edge.dangling⟩, level + 1, ?_, Nat.le_refl 5, ?_, ends⟩
    · simpa using Expr.Written.unary operates written tight
    · exact room.mono (by simp; omega)

theorem grouping (j : d.Judges fuel) {opening : Token} (standard : p.rules = .standard)
    (opens : opening.kind = .openParen) (short : 3 * ahead.length + 1 ≤ fuel) :
    (d.grouping (p.deeper.facing (opening :: ahead))).Reads p.deeper (read ++ [opening]) ahead
      (fun value taken next => Expr.OperandAt p value (opening :: taken) next)
      fun count diagnostic taken =>
        Expr.RefusedOperand p.limit (p.nesting + 1) count diagnostic (opening :: taken) := by
  rw [Descent.grouping, advance_bind, Parser.advance_facing, List.tail_cons]
  refine j.closing standard (by omega) (by decide) (by decide) ?_ ?_
  · rintro count diagnostic taken refusal
    exact .grouped opens refusal
  · rintro value edge level closing tokens rest rfl closes written room
    refine Reads.pure ⟨.closed, level + 1, ?_, Nat.le_succ 5, ?_, Edge.closed_endsBefore _⟩
    · simpa using Expr.Written.grouped opens written closes
    · exact room.mono (by simp; omega)

theorem operand (j : d.Judges fuel) (standard : p.rules = .standard)
    (room : Room p.limit p.nesting 1) (short : 3 * ahead.length ≤ fuel) :
    (d.operand (p.deeper.facing ahead)).Reads p.deeper read ahead (Expr.OperandAt p)
      (Expr.RefusedOperand p.limit (p.nesting + 1)) := by
  rw [Descent.operand, current_bind, rules_bind, Parser.rules_facing, Parser.rules_deeper, standard,
    Parser.current_facing]
  cases begins : Rules.standard.operand (front ahead).kind with
  | none => exact ⟨0, [], ahead, rfl, by simp, .start begins, by simp⟩
  | some rule =>
    cases ahead with
    | nil => cases begins
    | cons token rest =>
      have kind := Rules.operand_eq_some begins
      rw [List.length_cons] at short
      cases rule with
      | identifier => exact atom (.identifier kind) room
      | integer =>
        change (Descent.integer (p.deeper.facing (token :: rest))).Reads _ _ _ _ _
        cases read : Numeral.signed? token.literal with
        | none =>
          rw [integer_rejected read]
          exact ⟨0, [], token :: rest, rfl, rfl, .integer kind read, rfl⟩
        | some value =>
          rw [integer_accepted read]
          exact atom (.integer kind read) room
      | boolean => exact atom (.boolean kind) room
      | unary =>
        exact Reads.shift (show _ = [token] ++ rest from rfl) (j.unary standard kind (by omega))
      | grouping =>
        exact Reads.shift (show _ = [token] ++ rest from rfl) (j.grouping standard kind (by omega))
      | conditional =>
        exact Reads.shift (show _ = [token] ++ rest from rfl)
          (j.conditional standard room kind (by omega))
      | function =>
        exact Reads.shift (show _ = [token] ++ rest from rfl)
          (j.function standard room kind (by omega))

theorem argumentsStep (j : d.Judges fuel) (standard : p.rules = .standard)
    (short : 3 * ahead.length + 1 ≤ fuel) :
    (d.argumentsStep (p.facing ahead)).Reads p read ahead
      (fun values taken next => ∃ edge level, Expr.WrittenList edge level values taken ∧
        Room p.limit p.nesting level ∧ edge.EndsBefore .lowest next.kind ∧ next.kind ≠ .comma)
      (Expr.RefusedList p.limit p.nesting) := by
  refine Reads.bind (j.expr .lowest standard short) ?_ ?_
  · rintro count diagnostic taken _ _ _ refusal
    exact .first refusal
  rintro value tokens rest rfl ⟨edge, level, written, -, room, ends⟩
  have nonempty : read ++ tokens ≠ [] := List.append_ne_nil_of_right_ne_nil _ written.ne_nil
  rw [peek_bind, Parser.peek_window _ nonempty]
  by_cases found : (front rest).kind = .comma
  · obtain ⟨comma, rest, rfl, separated⟩ := exists_cons_of_front found (by decide)
    rw [if_pos found, advance_bind, Parser.advance_window _ nonempty, advance_bind,
      Parser.advance_facing, List.tail_cons]
    refine Reads.shift (show _ = [comma] ++ rest from rfl) ?_
    refine Reads.bind (j.arguments standard (by simp at short; omega)) ?_ ?_
    · rintro count diagnostic taken _ _ _ refusal
      exact .later written room separated refusal
    · rintro values others rest rfl ⟨last, deep, list, space, ends, apart⟩
      exact Reads.pure ⟨last, max level deep, by simpa using .cons written separated list,
        room.max space, ends, apart⟩
  · rw [if_neg found]
    exact Reads.pure ⟨edge, level, by simpa using .single written, room, ends, found⟩

theorem argumentList (j : d.Judges fuel) (standard : p.rules = .standard) (nonempty : read ≠ [])
    (room : Room p.limit p.nesting 0) (short : 3 * ahead.length + 2 ≤ fuel) :
    (d.argumentList (p.facing (window read ahead))).Reads p read ahead
      (fun values taken _ => ∃ level, Expr.Listed level values taken ∧ Room p.limit p.nesting level)
      (Expr.Unlisted p.limit p.nesting) := by
  rw [Descent.argumentList, peek_bind, Parser.peek_window _ nonempty, advance_bind,
    Parser.advance_window _ nonempty]
  by_cases found : (front ahead).kind = .closeParen
  · obtain ⟨closing, rest, rfl, closes⟩ := exists_cons_of_front found (by decide)
    rw [if_pos found]
    refine Reads.shift (show _ = [closing] ++ rest from rfl) ?_
    rw [show closing :: rest = window (read ++ [closing]) rest by simp]
    exact Reads.pure ⟨0, .none closes, room⟩
  · rw [if_neg found]
    refine Reads.bind (j.arguments standard short) ?_ ?_
    · rintro count diagnostic taken rest rfl blame refusal
      rw [front_append_eq, ← blame] at found
      exact .argument found refusal
    · rintro values tokens rest rfl ⟨edge, level, written, room, ends, apart⟩
      refine Reads.bind (Reads.expect (by simp [nonempty]) (by decide) (by decide)) ?_ ?_
      · rintro _ _ _ rest' rfl blame ⟨rfl, rfl, token, other, rfl⟩
        obtain rfl : token = front rest' := blame
        simpa using Expr.Unlisted.close written room ends apart other
      · rintro closing _ rest' rfl ⟨closes, rfl⟩
        exact Reads.pure ⟨level, by simpa using .some written closes, room⟩

theorem binary (j : d.Judges fuel) {operator : Token} {left : Expr} {bound : Precedence}
    (standard : p.rules = .standard) (short : 3 * ahead.length + 1 ≤ fuel) :
    (d.binary left bound (p.deeper.facing (operator :: ahead))).Reads p.deeper (read ++ [operator])
      ahead
      (fun value taken next => ∃ right, value = .binary operator operator.literal left right ∧
        Expr.ReadAt p.deeper bound right taken next)
      (Expr.Refused p.limit (p.nesting + 1) bound) := by
  rw [Descent.binary, current_bind, advance_bind, Parser.advance_facing, List.tail_cons]
  refine Reads.bind (j.expr bound standard short) ?_ ?_
  · rintro count diagnostic taken _ _ _ refusal
    exact refusal
  · rintro right tokens rest rfl found
    exact Reads.pure ⟨right, rfl, by simpa using found⟩

theorem call (j : d.Judges fuel) {opening : Token} {callee : Expr} (standard : p.rules = .standard)
    (room : Room p.limit p.nesting 1) (short : 3 * ahead.length + 2 ≤ fuel) :
    (d.call callee (p.deeper.facing (opening :: ahead))).Reads p.deeper (read ++ [opening]) ahead
      (fun value taken _ => ∃ arguments level, value = .call opening callee arguments ∧
        Expr.Listed level arguments taken ∧ Room p.limit p.nesting (level + 1))
      (Expr.Unlisted p.limit (p.nesting + 1)) := by
  rw [Descent.call, current_bind, Parser.current_facing, front_cons,
    show opening :: ahead = window (read ++ [opening]) ahead by simp]
  refine Reads.bind (j.argumentList standard (by simp) room short) ?_ ?_
  · rintro count diagnostic taken _ _ _ refusal
    exact refusal
  · rintro arguments tokens rest rfl ⟨level, listed, space⟩
    exact Reads.pure ⟨arguments, level, rfl, by simpa using listed, space.mono (by simp; omega)⟩

theorem operatorsStep (j : d.Judges fuel) {bound : Precedence} {edge : Edge} {level : Nat}
    {left : Expr} {tokens : List Token} (standard : p.rules = .standard)
    (short : 3 * ahead.length ≤ fuel) (nonempty : read ≠ [])
    (written : Expr.Written edge level left tokens) (fits : edge.Fits bound)
    (room : Room p.limit p.nesting level)
    (ends : edge.EndsBefore edge.strength (front ahead).kind) :
    (d.operatorsStep bound left (p.deeper.facing (window read ahead))).Reads p.deeper read ahead
      (fun value taken next => Expr.ReadAt p bound value (tokens ++ taken) next)
      fun count diagnostic taken =>
        Expr.Refused p.limit p.nesting bound count diagnostic (tokens ++ taken) := by
  have held : (p.deeper.facing (window read ahead)).peek = front ahead :=
    Parser.peek_window _ nonempty ahead
  have table : (p.deeper.facing (window read ahead)).rules = .standard := standard
  by_cases taken : bound < Rules.standard.level (front ahead).kind
  · have tight : .lowest < Rules.standard.level (front ahead).kind :=
      Nat.lt_of_le_of_lt (Precedence.lowest_le bound) taken
    have present : ahead ≠ [] := by
      rintro rfl
      exact absurd tight (by decide)
    obtain ⟨token, rest, rfl⟩ := List.exists_cons_of_ne_nil present
    rw [front_cons] at held taken tight ends
    rw [List.length_cons] at short
    have split (others more : List Token) :
        tokens ++ ([token] ++ (others ++ more)) = tokens ++ token :: others ++ more := by simp
    rcases Rules.level_eq_lowest_or tight with operates | opens
    · rw [operatorsStep_taken (by rwa [held, table]) (by rwa [held, table]), held, table,
        Parser.advance_window _ nonempty]
      refine Reads.shift (show _ = [token] ++ rest from rfl) ?_
      refine Reads.bind (j.binary standard (by omega)) ?_ ?_
      · rintro count diagnostic others _ _ _ refusal
        exact .right operates written room taken ends.1 refusal
      · rintro _ others rest rfl ⟨right, rfl, after, deep, second, fits', space, ends'⟩
        have whole := Expr.Written.binary operates written ends.1 second (fits'.lt operates)
        simp only [split]
        exact j.operators standard (by simp at short; omega) (by simp) whole (.inl taken)
          (room.max (space.mono (by simp; omega))) ends'
    · have calls : Rules.standard.operator token.kind = some .call := by rw [opens]; rfl
      rw [operatorsStep_taken (by rwa [held, table]) (by rwa [held, table]), held, table,
        Parser.advance_window _ nonempty]
      refine Reads.shift (show _ = [token] ++ rest from rfl) ?_
      rw [opens] at taken ends
      have tight : edge.strength = .call := Precedence.eq_call ends.1
      refine Reads.bind (j.call standard (room.mono ?_) (by omega)) ?_ ?_
      · have := written.level_pos
        omega
      · rintro count diagnostic others _ _ _ refusal
        exact .arguments opens written room taken tight refusal
      · rintro _ others rest rfl ⟨arguments, deep, rfl, listed, space⟩
        have whole := Expr.Written.call opens written tight listed
        simp only [split]
        exact j.operators standard (by simp at short; omega) (by simp) whole (Edge.closed_fits _)
          (room.max space) (Edge.closed_endsBefore _)
  · have weak := Precedence.not_lt.mp taken
    rw [operatorsStep_ended (by rwa [held, table])]
    exact Reads.pure ⟨edge, level, by simpa using written, fits, room, weak, ends.2⟩

theorem exprStep (j : d.Judges fuel) (bound : Precedence) (standard : p.rules = .standard)
    (short : 3 * ahead.length ≤ fuel) :
    (d.exprStep bound (p.facing ahead)).Reads p read ahead (Expr.ReadAt p bound)
      (Expr.Refused p.limit p.nesting bound) := by
  rcases room_or_full p.limit p.nesting with room | ⟨most, limited, full⟩
  · have inside : ((d.operand >>= d.operators bound) (p.deeper.facing ahead)).Reads p.deeper read
        ahead (Expr.ReadAt p bound) (Expr.Refused p.limit p.nesting bound) := by
      refine Reads.bind (j.operand standard room short) ?_ ?_
      · rintro count diagnostic taken _ _ _ refusal
        exact .operand room refusal
      · rintro left tokens rest rfl ⟨edge, level, written, tight, space, ends⟩
        have := written.ne_nil
        have := List.length_pos_iff.mpr this
        exact j.operators standard (by simp at short; omega) (by simp [written.ne_nil]) written
          (.inr tight) space ends
    rw [exprStep_room (p.facing ahead) room]
    change (((d.operand >>= d.operators bound) (p.deeper.facing ahead)).mapAfter _).Reads _ _ _ _ _
    cases ran : (d.operand >>= d.operators bound) (p.deeper.facing ahead) with
    | accepted value after =>
      rw [ran] at inside
      obtain ⟨taken, rest, rfl, found, rfl⟩ := inside
      exact ⟨taken, rest, rfl, found, rfl⟩
    | rejected diagnostic after =>
      rw [ran] at inside
      obtain ⟨count, taken, rest, rfl, blame, refusal, rfl⟩ := inside
      exact ⟨count, taken, rest, rfl, blame, refusal, rfl⟩
    | unfinished => rw [ran] at inside; exact inside.elim
  · rw [exprStep_full (p.facing ahead) limited full]
    exact ⟨0, [], ahead, rfl, rfl, .tooDeep limited full, rfl⟩

theorem expressionStatement (j : d.Judges fuel) (standard : p.rules = .standard)
    (plain : Rules.standard.statement (front ahead).kind = none)
    (short : 3 * ahead.length + 1 ≤ fuel) :
    (d.expressionStatement (p.facing ahead)).Reads p read ahead (Stmt.ReadAt p)
      (Stmt.Refused p.limit p.nesting) := by
  rw [Descent.expressionStatement, current_bind, Parser.current_facing]
  refine Reads.bind (j.expr .lowest standard short) ?_ ?_
  · rintro count diagnostic taken rest rfl blame refusal
    rw [front_append_eq, ← blame] at plain
    exact .expression plain refusal
  rintro value tokens rest rfl ⟨edge, level, written, -, room, ends⟩
  have nonempty : read ++ tokens ≠ [] := List.append_ne_nil_of_right_ne_nil _ written.ne_nil
  obtain ⟨first, others, rfl⟩ := List.exists_cons_of_ne_nil written.ne_nil
  rw [peek_bind, Parser.peek_window _ nonempty]
  by_cases found : (front rest).kind = .semicolon
  · obtain ⟨semicolon, rest, rfl, closes⟩ := exists_cons_of_front found (by decide)
    rw [if_pos found, advance_bind, Parser.advance_window _ nonempty]
    refine Reads.shift (show _ = [semicolon] ++ rest from rfl) ?_
    rw [show semicolon :: rest = window (read ++ (first :: others) ++ [semicolon]) rest by simp]
    exact Reads.pure ⟨none, level, by simpa using .expression written closes, room, apart_none _⟩
  · rw [if_neg found]
    by_cases block : value.endsWithBlock = true
    · rw [if_pos block]
      refine Reads.pure ⟨some edge, level, by simpa using .bare written block, room, ?_⟩
      simpa [Apart] using ⟨ends, found⟩
    · rw [if_neg block, reject_apply]
      refine ⟨0, [], rest, rfl, rfl, ?_, ?_⟩
      · simpa using .semicolon written room ends (Bool.eq_false_iff.mpr block) found
      · rw [blamed_unexpected (by decide), List.append_nil, Parser.opened_zero]

theorem declaration (j : d.Judges fuel) {word : Token} (standard : p.rules = .standard)
    (declares : word.kind = .varWord) (short : 3 * ahead.length + 1 ≤ fuel) :
    (d.declaration (p.facing (word :: ahead))).Reads p (read ++ [word]) ahead
      (fun statement taken next => Stmt.ReadAt p statement (word :: taken) next)
      fun count diagnostic taken =>
        Stmt.Refused p.limit p.nesting count diagnostic (word :: taken) := by
  rw [Descent.declaration, current_bind, Parser.current_facing, front_cons,
    show word :: ahead = window (read ++ [word]) ahead by simp]
  refine Reads.bind (Reads.expect (by simp) (by decide) (by decide)) ?_ ?_
  · rintro _ _ _ _ _ _ ⟨rfl, rfl, token, other, rfl⟩
    exact .name declares other
  rintro name _ rest rfl ⟨named, rfl⟩
  refine Reads.bind (Reads.expect (by simp) (by decide) (by decide)) ?_ ?_
  · rintro _ _ _ _ _ _ ⟨rfl, rfl, token, other, rfl⟩
    exact .assign declares named other
  rintro assign _ rest rfl ⟨assigns, rfl⟩
  rw [advance_bind, Parser.advance_window _ (by simp)]
  refine j.closing standard (by simp at short; omega) (by decide) (by decide) ?_ ?_
  · rintro count diagnostic taken refusal
    exact .declaration declares named assigns refusal
  · rintro value edge level semicolon tokens rest rfl closes written room
    exact Reads.pure ⟨none, level,
      by simpa using .declaration declares named assigns written closes,
      room, apart_none _⟩

theorem ret (j : d.Judges fuel) {word : Token} (standard : p.rules = .standard)
    (returns : word.kind = .returnWord) (short : 3 * ahead.length + 1 ≤ fuel) :
    (d.ret (p.facing (word :: ahead))).Reads p (read ++ [word]) ahead
      (fun statement taken next => Stmt.ReadAt p statement (word :: taken) next)
      fun count diagnostic taken =>
        Stmt.Refused p.limit p.nesting count diagnostic (word :: taken) := by
  rw [Descent.ret, current_bind, advance_bind, Parser.advance_facing, List.tail_cons]
  refine j.closing standard short (by decide) (by decide) ?_ ?_
  · rintro count diagnostic taken refusal
    exact .ret returns refusal
  · rintro value edge level semicolon tokens rest rfl closes written room
    exact Reads.pure ⟨none, level, by simpa using .ret returns written closes, room, apart_none _⟩

theorem statement (j : d.Judges fuel) (standard : p.rules = .standard)
    (short : 3 * ahead.length + 1 ≤ fuel) :
    (d.statement (p.facing ahead)).Reads p read ahead (Stmt.ReadAt p)
      (Stmt.Refused p.limit p.nesting) := by
  have table : (p.facing ahead).rules = .standard := standard
  cases begins : Rules.standard.statement (front ahead).kind with
  | none =>
    rw [statement_eq_expressionStatement (by rwa [table])]
    exact j.expressionStatement standard begins short
  | some rule =>
    cases ahead with
    | nil => cases begins
    | cons word rest =>
      rw [statement_eq_statementBy (by rwa [table])]
      rw [List.length_cons] at short
      refine Reads.shift (show _ = [word] ++ rest from rfl) ?_
      rcases Rules.statement_eq_some begins with ⟨rfl, declares⟩ | ⟨rfl, returns⟩
      · exact j.declaration standard declares (by omega)
      · exact j.ret standard returns (by omega)

theorem statementsStep (j : d.Judges fuel) (standard : p.rules = .standard)
    (room : Room p.limit p.nesting 0) (short : 3 * ahead.length + 1 ≤ fuel) :
    (d.statementsStep (p.facing ahead)).Reads p read ahead
      (fun body taken _ => Stmt.BodyAt p body taken) (Stmt.Unended p) := by
  rw [Descent.statementsStep, current_bind, Parser.current_facing]
  by_cases closed : (front ahead).kind = .closeCurly
  · obtain ⟨closing, rest, rfl, closes⟩ := exists_cons_of_front closed (by decide)
    rw [if_pos closed]
    exact ⟨[closing], rest, rfl, ⟨0, [], closing, rfl, closes, .nil, room⟩, by simp⟩
  rw [if_neg closed]
  by_cases ended : (front ahead).kind = .endOfInput
  · rw [if_pos ended, reject_apply]
    exact ⟨0, [], ahead, rfl, rfl, .inr ⟨rfl, 0, [], _, .nil, room, ended, rfl⟩, rfl⟩
  rw [if_neg ended]
  refine Reads.bind (j.statement standard short) ?_ ?_
  · rintro count diagnostic taken rest rfl blame refusal
    rw [front_append_eq, ← blame] at closed ended
    exact .inl (.first closed ended refusal)
  rintro statement tokens rest rfl ⟨ending, level, written, space, apart⟩
  have nonempty : read ++ tokens ≠ [] := List.append_ne_nil_of_right_ne_nil _ written.ne_nil
  have shorter := List.length_pos_iff.mpr written.ne_nil
  rw [advance_bind, Parser.advance_window _ nonempty]
  refine Reads.bind (j.statements standard room (by simp at short; omega)) ?_ ?_
  · rintro count diagnostic taken rest rfl blame refusal
    rw [front_append_eq, ← blame] at apart
    rcases refusal with refusal | ⟨rfl, deep, body, token, list, space', ended', rfl⟩
    · exact .inl (.later written space apart refusal)
    · have list := Stmt.WrittenList.cons written (apart_head apart) list
      exact .inr ⟨rfl, max level deep, statement :: body, token, list, space.max space', ended',
        rfl⟩
  · rintro body _ rest rfl ⟨deep, inner, closing, rfl, closes, list, space'⟩
    rw [List.append_assoc, front_append_eq] at apart
    have list := Stmt.WrittenList.cons written (apart_head apart) list
    exact Reads.pure ⟨max level deep, tokens ++ inner, closing, by simp, closes, list,
      space.max space'⟩

end Descent.Judges

/-- A descent with enough fuel for a list reads it to the end at every place. -/
theorem descent_judges (fuel : Nat) : (descent fuel).Judges fuel := by
  induction fuel with
  | zero => exact ⟨nofun, nofun, nofun, nofun, nofun⟩
  | succ fuel ih =>
    constructor
    · intro p read ahead bound standard short
      exact ih.exprStep bound standard (by omega)
    · intro p read ahead bound edge level left tokens standard short nonempty written fits room ends
      exact ih.operatorsStep standard (by omega) nonempty written fits room ends
    · intro p read ahead standard short
      exact ih.argumentsStep standard (by omega)
    · intro p read ahead nonempty short
      exact ih.parametersStep nonempty (by omega)
    · intro p read ahead standard room short
      exact ih.statementsStep standard room (by omega)

end ScriptReader
