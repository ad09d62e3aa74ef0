import ScriptReader.Proofs.Passing
import ScriptReader.Proofs.Streams

/-! # What a program takes from its stream

A stream that counts what is pulled from it tells how far a parser reads. Every statement, and
every refusal, takes at least one token; nothing advances past the end of input but the main loop,
and that at most once. With the two tokens a parser starts with, a list is so read with at most
three pulls more than it has tokens.
-/

namespace ScriptReader

/-- A stream with the number of tokens, ends of input included, that were pulled from it. -/
structure Metered (σ : Type) where
  source : σ
  pulled : Nat := 0

variable {σ α : Type} [TokenStream σ]

instance : TokenStream (Metered σ) where
  next stream := ((TokenStream.next stream.source).1,
    ⟨(TokenStream.next stream.source).2, stream.pulled + 1⟩)
  remaining stream := TokenStream.remaining stream.source
  weight_next stream := TokenStream.weight_next stream.source

open TokenStream

theorem Metered.take_eq (count : Nat) (source : σ) (pulled : Nat) :
    take count (Metered.mk source pulled) = take count source := by
  induction count generalizing source pulled with
  | zero => rfl
  | succ count ih =>
    rw [take, take, ← ih _ (pulled + 1)]
    rfl

/-- Counting does not change what is read. -/
theorem Metered.alike (source : σ) (pulled : Nat) : Alike (Metered.mk source pulled) source :=
  fun count => take_eq count source pulled

/-- The parser that an outcome leaves behind. -/
def Outcome.left? : Outcome σ α → Option (Parser σ)
  | .accepted _ after => some after
  | .rejected _ after => some after
  | .unfinished => none

theorem Outcome.PassedFrom.of_left? {p after : Parser σ} {outcome : Outcome σ α}
    (passed : outcome.PassedFrom p) (left : after ∈ outcome.left?) : Passes p after := by
  cases outcome with
  | accepted =>
    cases left
    exact passed.1
  | rejected =>
    cases left
    exact passed
  | unfinished => cases left

/-! ### Steps -/

/-- Both parsers hold the same tokens, and take further ones from the same stream. -/
structure Parser.Abreast (p q : Parser σ) : Prop where
  source : p.source = q.source
  peek : p.peek = q.peek
  current : p.current = q.current

theorem Parser.Abreast.advance {p q : Parser σ} (abreast : p.Abreast q) :
    p.advance.Abreast q.advance where
  source := by rw [Parser.advance, Parser.advance, abreast.source]
  peek := by rw [Parser.advance, Parser.advance, abreast.source]
  current := abreast.peek

/-- A number of steps leads to the same tokens, and none of them left an end of input behind. -/
theorem Passes.exists_advances {p q : Parser σ} (passed : Passes p q) :
    ∃ count, q.Abreast (Parser.advance^[count] p) ∧
      ∀ step < count, (Parser.advance^[step] p).current.kind ≠ .endOfInput := by
  induction passed with
  | refl => exact ⟨0, ⟨rfl, rfl, rfl⟩, nofun⟩
  | @advance q _ present ih =>
    obtain ⟨count, abreast, earlier⟩ := ih
    refine ⟨count + 1, ?_, fun step below => ?_⟩
    · rw [Function.iterate_succ_apply']
      exact abreast.advance
    · rcases Nat.lt_succ_iff_lt_or_eq.mp below with below | rfl
      · exact earlier step below
      · exact abreast.current ▸ present
  | count _ _ _ ih =>
    obtain ⟨count, abreast, earlier⟩ := ih
    exact ⟨count, ⟨abreast.source, abreast.peek, abreast.current⟩, earlier⟩

theorem Parser.pulled_iterate_advance (count : Nat) (p : Parser (Metered σ)) :
    (Parser.advance^[count] p).source.pulled = p.source.pulled + count := by
  induction count with
  | zero => rfl
  | succ count ih =>
    rw [Function.iterate_succ_apply', ← Nat.add_assoc, ← ih]
    rfl

/-- One pull is one step, and every step left a token behind. -/
theorem Passes.present {p q : Parser (Metered σ)} (passed : Passes p q) {step : Nat}
    (below : p.source.pulled + step < q.source.pulled) :
    (Parser.advance^[step] p).current.kind ≠ .endOfInput := by
  obtain ⟨count, abreast, earlier⟩ := passed.exists_advances
  rw [abreast.source, Parser.pulled_iterate_advance] at below
  exact earlier step (Nat.lt_of_add_lt_add_left below)

/-- What was pulled and what is still ahead do not add up to more. -/
theorem Passes.pulled_add_ahead_le {p q : Parser (Metered σ)} (passed : Passes p q) :
    q.source.pulled + q.ahead ≤ p.source.pulled + p.ahead := by
  induction passed with
  | refl => exact Nat.le_refl _
  | @advance q _ present ih =>
    have fewer : q.advance.ahead < q.ahead := Parser.ahead_advance_lt present (Nat.le_refl _)
    have one : q.advance.source.pulled = q.source.pulled + 1 := rfl
    omega
  | count _ _ _ ih => exact ih

/-! ### Statements and refusals -/

/-- The main loop ends at the end of input, and everything it adds takes a token of its own. -/
theorem Parser.statements?_spent {p : Parser σ} :
    ∀ {statements : List Stmt} {last : Parser σ}, p.statements? = some (statements, last) →
      last.current.kind = .endOfInput ∧
        statements.length + last.diagnostics.length + last.ahead ≤
          p.diagnostics.length + p.ahead := by
  fun_induction Parser.statements? p with
  | case1 p ended =>
    rintro _ _ ⟨⟩
    exact ⟨ended, by simp⟩
  | case2 p present statement after ran ih =>
    intro statements last read
    obtain ⟨⟨rest, last⟩, further, ⟨⟩⟩ := Option.bind_eq_some_iff.mp read
    have moved := p.statement_moved
    rw [ran] at moved
    obtain ⟨ended, fewer⟩ := ih further
    have taken := Parser.ahead_advance_lt present moved.behind_le
    have found : after.advance.diagnostics = p.diagnostics := moved.diagnostics_eq
    rw [found] at fewer
    exact ⟨ended, by rw [List.length_cons]; omega⟩
  | case3 p present diagnostic after ran ih =>
    intro statements last read
    have moved := p.statement_moved
    rw [ran] at moved
    obtain ⟨ended, fewer⟩ := ih read
    have skipped := Passes.recover (after.record diagnostic)
    have taken := Parser.ahead_advance_lt present
      (Nat.le_trans skipped.moves.behind_le moved.behind_le)
    have found : (after.record diagnostic).recover.advance.diagnostics =
        p.diagnostics ++ [diagnostic] :=
      skipped.moves.diagnostics_eq.trans (congrArg (· ++ [diagnostic]) moved.diagnostics_eq)
    rw [found, List.length_append, List.length_singleton] at fewer
    exact ⟨ended, by omega⟩
  | case4 => nofun

/-! ### Pulls -/

/-- The parser holds, and will be yielded, the tokens of a list without an end of input. -/
def Parser.Settled (p : Parser σ) : Prop :=
  ∃ (q : Parser (List Token)) (tokens : List Token), Plain tokens ∧ p.Mirrors (q.facing tokens)

namespace Parser.Settled

variable {p q : Parser σ}

theorem advance (settled : p.Settled) : p.advance.Settled := by
  obtain ⟨q, tokens, plain, mirrors⟩ := settled
  refine ⟨q, tokens.tail, plain.suffix (List.tail_suffix _), ?_⟩
  rw [← Parser.advance_facing]
  exact mirrors.advance

theorem of_moves (settled : p.Settled) (moved : Moves p q) : q.Settled := by
  induction moved with
  | refl => exact settled
  | advance _ ih => exact ih.advance
  | count openBlocks nesting _ ih =>
    obtain ⟨q, tokens, plain, mirrors⟩ := ih
    exact ⟨{ q with openBlocks, nesting }, tokens, plain,
      { mirrors with openBlocks := rfl, nesting := rfl }⟩

theorem record (settled : p.Settled) (diagnostic : Diagnostic) : (p.record diagnostic).Settled := by
  obtain ⟨q, tokens, plain, mirrors⟩ := settled
  exact ⟨q.record diagnostic, tokens, plain, mirrors.record diagnostic⟩

/-- Behind the end of input comes nothing else. -/
theorem ended (settled : p.Settled) (ended : p.current.kind = .endOfInput) :
    p.current = .endOfInput ∧ p.peek = .endOfInput := by
  obtain ⟨q, tokens, plain, mirrors⟩ := settled
  rw [mirrors.current, mirrors.peek]
  cases tokens with
  | nil => exact ⟨rfl, rfl⟩
  | cons token tokens =>
    rw [mirrors.current] at ended
    exact ((plain_cons.mp plain).1 ended).elim

end Parser.Settled

/-- The main loop pulls as much as is ahead, and once more where a refusal ran into the end. -/
theorem Parser.pulled_statements? {p : Parser (Metered σ)} :
    ∀ {statements : List Stmt} {last : Parser (Metered σ)}, p.rules = .standard → p.Settled →
      p.statements? = some (statements, last) →
      last.Settled ∧ last.source.pulled ≤ p.source.pulled + p.ahead + 1 := by
  fun_induction Parser.statements? p with
  | case1 p ended =>
    rintro _ _ - settled ⟨⟩
    exact ⟨settled, by omega⟩
  | case2 p present statement after ran ih =>
    intro statements last standard settled read
    obtain ⟨⟨rest, last⟩, further, ⟨⟩⟩ := Option.bind_eq_some_iff.mp read
    have passed := Parser.statement_passed standard
    rw [ran] at passed
    have passed := passed.1.advance passed.2
    obtain ⟨settled, bounded⟩ :=
      ih (passed.rules_eq.trans standard) (settled.of_moves passed.moves) further
    have kept := passed.pulled_add_ahead_le
    exact ⟨settled, by omega⟩
  | case3 p present diagnostic after ran ih =>
    intro statements last standard settled read
    have passed : Passes p after := by
      have passed := Parser.statement_passed standard
      rwa [ran] at passed
    have skipped := Passes.recover (after.record diagnostic)
    have settled : (after.record diagnostic).recover.Settled :=
      ((settled.of_moves passed.moves).record diagnostic).of_moves skipped.moves
    have kept := Nat.le_trans skipped.pulled_add_ahead_le passed.pulled_add_ahead_le
    by_cases ended : (after.record diagnostic).recover.current.kind = .endOfInput
    · -- The step past the end comes to another one, so no further statement is begun.
      have stands : (after.record diagnostic).recover.advance.current.kind = .endOfInput :=
        congrArg Token.kind (settled.ended ended).2
      rw [Parser.statements?, dif_pos stands] at read
      cases read
      have one : (after.record diagnostic).recover.advance.source.pulled =
        (after.record diagnostic).recover.source.pulled + 1 := rfl
      exact ⟨settled.advance, by omega⟩
    · have stepped := skipped.advance ended
      obtain ⟨settled, bounded⟩ :=
        ih (stepped.rules_eq.trans (passed.rules_eq.trans standard)) settled.advance read
      have kept := Nat.le_trans stepped.pulled_add_ahead_le passed.pulled_add_ahead_le
      exact ⟨settled, by omega⟩
  | case4 =>
    intro _ _ _ _ read
    cases read

/-! ### Programs -/

namespace Parser

theorem settled_ofStream {tokens : List Token} (plain : Plain tokens) :
    (ofStream (Metered.mk tokens 0)).Settled := by
  refine ⟨start (some standardLimit) .standard [], tokens, plain, ?_⟩
  rw [← start_eq_facing]
  exact Mirrors.start (Metered.alike tokens 0) _ _

theorem pulled_ofStream (source : σ) : (ofStream (Metered.mk source 0)).source.pulled = 2 := rfl

/-- A parser starts with no more than its tokens ahead of it. -/
theorem ahead_ofStream_le (source : σ) : (ofStream source).ahead ≤ remaining source := by
  refine Nat.le_trans (ahead_advance_le _) (Nat.le_trans (behind_advance_le _) ?_)
  exact Nat.le_of_eq (Nat.zero_add _)

end Parser

/-- A list without an end of input is read to its end with at most three pulls more than it has
tokens, with at most one statement or diagnostic a token, and no statement steps past the end. -/
theorem parse_progress {tokens : List Token} (plain : Plain tokens) :
    (∃ last : Parser (Metered (List Token)),
      (Parser.ofStream (Metered.mk tokens 0)).program? = some ((parse tokens).1, last) ∧
        last.diagnostics = (parse tokens).2 ∧ last.current = .endOfInput ∧
        last.source.pulled ≤ tokens.length + 3) ∧
      (parse tokens).1.statements.length + (parse tokens).2.length ≤ tokens.length ∧
      ∀ p : Parser (Metered (List Token)), p.rules = .standard → ∀ after ∈ p.statement.left?,
        ∀ step, p.source.pulled + step < after.source.pulled →
          (Parser.advance^[step] p).current.kind ≠ .endOfInput := by
  obtain ⟨last, ran, found⟩ := exists_program?_of_alike (Metered.alike tokens 0) plain
  have ahead := Parser.ahead_ofStream_le (Metered.mk tokens 0)
  rw [show remaining (Metered.mk tokens 0) = tokens.length from rfl] at ahead
  obtain ⟨⟨statements, last⟩, read, same⟩ := Option.map_eq_some_iff.mp ran
  obtain ⟨program, rfl⟩ := Prod.mk.inj same
  obtain ⟨ended, spent⟩ := Parser.statements?_spent read
  obtain ⟨settled, pulled⟩ := Parser.pulled_statements? rfl (Parser.settled_ofStream plain) read
  rw [Parser.pulled_ofStream] at pulled
  refine ⟨⟨last, ran, found, (settled.ended ended).1, by omega⟩, ?_, ?_⟩
  · rw [← program, ← found]
    have none : (Parser.ofStream (Metered.mk tokens 0)).diagnostics.length = 0 := rfl
    dsimp only
    omega
  · intro p standard after left step below
    exact ((Parser.statement_passed standard).of_left? left).present below

/-- A declaration without `=`, a statement that is read, a `return` without an operand, and a
declaration that the end of input cuts off. -/
theorem parse_progress_malformed :
    ∃ (tokens : List Token) (last : Parser (Metered (List Token))),
      tokens = [⟨.varWord, "var"⟩, ⟨.identifier, "x"⟩, ⟨.integer, "5"⟩, ⟨.semicolon, ";"⟩,
        ⟨.identifier, "y"⟩, ⟨.semicolon, ";"⟩, ⟨.returnWord, "return"⟩, ⟨.closeParen, ")"⟩,
        ⟨.semicolon, ";"⟩, ⟨.varWord, "var"⟩] ∧
      Plain tokens ∧
      (Parser.ofStream (Metered.mk tokens 0)).program? = some ((parse tokens).1, last) ∧
      last.diagnostics.length = 3 ∧ last.current = .endOfInput ∧ last.source.pulled ≤ 13 ∧
      (parse tokens).1.statements.length + (parse tokens).2.length ≤ 10 := by
  let tokens : List Token := [⟨.varWord, "var"⟩, ⟨.identifier, "x"⟩, ⟨.integer, "5"⟩,
    ⟨.semicolon, ";"⟩, ⟨.identifier, "y"⟩, ⟨.semicolon, ";"⟩, ⟨.returnWord, "return"⟩,
    ⟨.closeParen, ")"⟩, ⟨.semicolon, ";"⟩, ⟨.varWord, "var"⟩]
  have plain : Plain tokens := by decide
  have faults : (parse tokens).2.length = 3 := by decide +kernel
  obtain ⟨⟨last, ran, found, ended, pulled⟩, few, -⟩ := parse_progress plain
  exact ⟨tokens, last, rfl, plain, ran, found ▸ faults, ended, pulled, few⟩

/-- The declaration that is cut off takes all three pulls behind the tokens. -/
example : (Parser.ofStream (Metered.mk [Token.mk .varWord "var"] 0)).program?.map
    (·.2.source.pulled) = some 4 := by
  decide +kernel

end ScriptReader
