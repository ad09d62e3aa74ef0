import ScriptReader.Parser.Program
import ScriptReader.Proofs.Congruence
import ScriptReader.Proofs.Rejection
import ScriptReader.Proofs.Soundness

/-! # How a program is read

A list of tokens is read statement by statement. Each statement is a writing, or a refusal, in which
case reading resumes behind the tokens that recovery skips. Every list has exactly one such run, and
parsing answers its statements and its diagnostics.
-/

namespace ScriptReader

open Filter

/-- The tokens from the last one on that recovery skips, with the number of blocks that are open at
the first one. -/
def lastSkipped : Nat → List Token → List Token
  | _, [] => []
  | depth, token :: rest =>
    match token.kind with
    | .endOfInput => token :: rest
    | .semicolon => if depth = 0 then token :: rest else lastSkipped depth rest
    | .openCurly => lastSkipped (depth + 1) rest
    | .closeCurly =>
      if depth = 0 then token :: rest
      else if depth = 1 ∧ (front rest).kind ≠ .elseWord then
        if (front rest).kind = .semicolon then rest else token :: rest
      else lastSkipped (depth - 1) rest
    | _ => lastSkipped depth rest

/-- The tokens at which reading resumes. -/
def resumed (depth : Nat) (tokens : List Token) : List Token := (lastSkipped depth tokens).tail

theorem Parser.skip_facing (p : Parser (List Token)) (depth : Nat) (tokens : List Token) :
    (p.facing tokens).skip depth = p.facing (lastSkipped depth tokens) := by
  induction tokens generalizing depth with
  | nil =>
    rw [skip, dif_pos (by rfl)]
    rfl
  | cons token rest ih =>
    rw [skip]
    unfold lastSkipped
    simp only [current_facing, front_cons, peek_facing, advance_facing, List.tail_cons]
    cases kind : token.kind <;>
      simp only [ih, reduceCtorEq, dite_false, dite_true, apply_ite p.facing]

theorem lastSkipped_suffix (depth : Nat) (tokens : List Token) :
    lastSkipped depth tokens <:+ tokens := by
  induction tokens generalizing depth with
  | nil => exact List.suffix_rfl
  | cons token rest ih =>
    have further (depth : Nat) : lastSkipped depth rest <:+ token :: rest :=
      (ih depth).trans (List.suffix_cons token rest)
    unfold lastSkipped
    split
    · exact List.suffix_rfl
    · split
      · exact List.suffix_rfl
      · exact further _
    · exact further _
    · split
      · exact List.suffix_rfl
      · split
        · split
          · exact List.suffix_cons token rest
          · exact List.suffix_rfl
        · exact further _
    · exact further _

theorem resumed_suffix (depth : Nat) (tokens : List Token) : resumed depth tokens <:+ tokens :=
  (List.tail_suffix _).trans (lastSkipped_suffix depth tokens)

namespace Parser

variable {p after : Parser (List Token)} {limit : Option Nat} {diagnostic : Diagnostic}
  {tokens rest : List Token}

/-- Recovery gives up the blocks that are open. -/
theorem recover_eq_facing (closed : p.openBlocks = 0) (count : Nat) (tokens : List Token) :
    ((p.opened count).facing tokens).recover = p.facing (lastSkipped count tokens) := by
  have given_up : { (p.opened count).facing tokens with openBlocks := 0 } = p.facing tokens := by
    simp only [facing, opened, closed]
  have depth : ((p.opened count).facing tokens).openBlocks = count := by
    simp only [openBlocks_facing, opened, closed, Nat.zero_add]
  rw [recover, given_up, depth, skip_facing]

/-- Reading resumes behind what recovery skips. -/
theorem recover_facing (closed : p.openBlocks = 0) (count : Nat) (tokens : List Token) :
    ((p.opened count).facing tokens).recover.advance = p.facing (resumed count tokens) := by
  rw [recover_eq_facing closed, advance_facing]
  rfl

/-- A parser over a list brings along enough fuel for a statement. -/
theorem statement_reads (p : Parser (List Token)) (standard : p.rules = .standard)
    (ahead : List Token) :
    (p.facing ahead).statement.Reads p [] ahead (Stmt.ReadAt p)
      (Stmt.Refused p.limit p.nesting) := by
  refine (descent_judges (p.facing ahead).fuel).statement standard ?_
  change 3 * ahead.length + 1 ≤ 4 * ((ahead.drop 2).length + _) + 16
  rw [List.length_drop]
  omega

theorem written_of_accepted {statement : Stmt} (standard : p.rules = .standard)
    (ran : (p.facing tokens).statement = .accepted statement after) :
    ∃ ending level taken rest, tokens = taken ++ rest ∧
      Stmt.Written ending level statement taken ∧ Room p.limit p.nesting level ∧
      Apart ending (front rest).kind ∧ after = p.facing (window taken rest) := by
  have reads := p.statement_reads standard tokens
  rw [ran] at reads
  obtain ⟨taken, rest, rfl, ⟨ending, level, written, room, apart⟩, rfl⟩ := reads
  exact ⟨ending, level, taken, rest, rfl, written, room, apart, rfl⟩

theorem refused_of_rejected (standard : p.rules = .standard)
    (ran : (p.facing tokens).statement = .rejected diagnostic after) :
    ∃ count taken rest, tokens = taken ++ rest ∧ front rest = diagnostic.token ∧
      Stmt.Refused p.limit p.nesting count diagnostic taken ∧
      after = (p.opened count).facing (blamed diagnostic taken rest) := by
  have reads := p.statement_reads standard tokens
  rw [ran] at reads
  obtain ⟨count, taken, rest, rfl, blame, refused, rfl⟩ := reads
  exact ⟨count, taken, rest, rfl, blame.symm, refused, rfl⟩

theorem statement_ne_unfinished (standard : p.rules = .standard) :
    (p.facing tokens).statement ≠ .unfinished := by
  intro cut
  have reads := p.statement_reads standard tokens
  rw [cut] at reads
  exact reads

/-- The outcome that every descent with enough fuel comes to is that of the statement. -/
theorem statement_eq {outcome : Outcome (List Token) Stmt} (standard : p.rules = .standard)
    (ran : ∀ᶠ fuel in atTop, (descent fuel).statement (p.facing tokens) = outcome) :
    (p.facing tokens).statement = outcome := by
  obtain ⟨least, ran⟩ := eventually_atTop.mp ran
  have within : (p.facing tokens).fuel ≤ max least (p.facing tokens).fuel := le_max_right _ _
  rw [← ran _ (le_max_left least (p.facing tokens).fuel)]
  exact ((descent_within within).statement Parse.Within.congruence _
    (statement_ne_unfinished standard)).symm

theorem statement_accepted {ending : Option Edge} {level : Nat} {statement : Stmt}
    (standard : p.rules = .standard) (written : Stmt.Written ending level statement tokens)
    (room : Room p.limit p.nesting level) (apart : Apart ending (front rest).kind) :
    (p.facing (tokens ++ rest)).statement = .accepted statement (p.facing (window tokens rest)) :=
  statement_eq standard (written.recognized.accepted standard room apart)

theorem statement_rejected {nest count : Nat} {diagnostic : Diagnostic}
    (stands : p.Stands limit nest) (refused : Stmt.Refused limit nest count diagnostic tokens)
    (blame : front rest = diagnostic.token) :
    (p.facing (tokens ++ rest)).statement =
      .rejected diagnostic ((p.opened count).facing (blamed diagnostic tokens rest)) :=
  statement_eq stands.standard (refused.rejected stands [] rest blame)

variable {σ : Type} [TokenStream σ] {q left : Parser σ}

theorem statements?_accepted {statement : Stmt} (present : q.current.kind ≠ .endOfInput)
    (ran : q.statement = .accepted statement left) :
    q.statements? = (do
      let (rest, last) ← left.advance.statements?
      some (statement :: rest, last)) := by
  rw [statements?, dif_neg present]
  split
  · next ran' =>
    rw [ran] at ran'
    cases ran'
    rfl
  · next ran' => rw [ran] at ran'; cases ran'
  · next ran' => rw [ran] at ran'; cases ran'

theorem statements?_rejected {diagnostic : Diagnostic} (present : q.current.kind ≠ .endOfInput)
    (ran : q.statement = .rejected diagnostic left) :
    q.statements? = (left.record diagnostic).recover.advance.statements? := by
  rw [statements?, dif_neg present]
  split
  · next ran' => rw [ran] at ran'; cases ran'
  · next ran' =>
    rw [ran] at ran'
    cases ran'
    rfl
  · next ran' => rw [ran] at ran'; cases ran'

end Parser

/-- A run over the statements of a list, with what it reads and the diagnostics it finds. -/
inductive Run (limit : Option Nat) : List Token → List Stmt → List Diagnostic → Prop
  | ended {tokens : List Token} (ended : (front tokens).kind = .endOfInput) : Run limit tokens [] []
  | statement {ending : Option Edge} {level : Nat} {statement : Stmt} {statements : List Stmt}
      {diagnostics : List Diagnostic} {tokens rest : List Token}
      (written : Stmt.Written ending level statement tokens) (room : Room limit 0 level)
      (apart : Apart ending (front rest).kind) (behind : Run limit rest statements diagnostics) :
      Run limit (tokens ++ rest) (statement :: statements) diagnostics
  | recovery {count : Nat} {diagnostic : Diagnostic} {statements : List Stmt}
      {diagnostics : List Diagnostic} {tokens rest : List Token}
      (refused : Stmt.Refused limit 0 count diagnostic tokens)
      (blame : front rest = diagnostic.token)
      (present : (front (tokens ++ rest)).kind ≠ .endOfInput)
      (behind : Run limit (resumed count (blamed diagnostic tokens rest)) statements diagnostics) :
      Run limit (tokens ++ rest) statements (diagnostic :: diagnostics)

namespace Run

variable {limit : Option Nat} {tokens : List Token} {statements : List Stmt}
  {diagnostics : List Diagnostic}

/-- A parser at the beginning of a statement follows the run. -/
theorem statements? (run : Run limit tokens statements diagnostics) :
    ∀ {p : Parser (List Token)}, p.Stands limit 0 → p.openBlocks = 0 →
      ∃ last, (p.facing tokens).statements? = some (statements, last) ∧
        last.diagnostics = p.diagnostics ++ diagnostics := by
  induction run with
  | @ended tokens ended =>
    intro p _ _
    refine ⟨p.facing tokens, ?_, by simp⟩
    rw [Parser.statements?, dif_pos (by exact ended)]
  | @statement ending level statement statements diagnostics tokens rest written room apart _ ih =>
    intro p stands closed
    obtain ⟨last, ran, found⟩ := ih stands closed
    have read := Parser.statement_accepted stands.standard written (stands.room room) apart
    have present := written.front_kind.2
    rw [← front_append_of_ne_nil written.ne_nil rest] at present
    refine ⟨last, ?_, found⟩
    rw [Parser.statements?_accepted present read, Parser.advance_window _ written.ne_nil, ran]
    rfl
  | @recovery count diagnostic statements diagnostics tokens rest refused blame present _ ih =>
    intro p stands closed
    have closed' : (p.record diagnostic).openBlocks = 0 := closed
    obtain ⟨last, ran, found⟩ := ih (p := p.record diagnostic)
      ⟨stands.standard, stands.limit_eq, stands.nesting_eq⟩ closed
    have read := Parser.statement_rejected stands refused blame
    refine ⟨last, ?_, by rw [found, Parser.record, List.append_assoc]; rfl⟩
    rw [Parser.statements?_rejected present read, ← ran]
    exact congrArg Parser.statements? (Parser.recover_facing closed' count _)

/-- What parsing answers for a list that has the run. -/
theorem result (run : Run limit tokens statements diagnostics) :
    (Parser.start limit .standard tokens).result = (⟨statements⟩, diagnostics) := by
  obtain ⟨last, ran, found⟩ := run.statements? (p := .start limit .standard []) ⟨rfl, rfl, rfl⟩ rfl
  rw [Parser.start_eq_facing, Parser.result, Parser.program?, ran]
  exact congrArg _ found

end Run

/-- Written statements up to the end of input are read without a diagnostic. -/
theorem Stmt.WrittenList.run {limit : Option Nat} : ∀ {level : Nat} {statements : List Stmt}
    {tokens : List Token}, Stmt.WrittenList level statements tokens → ∀ {rest : List Token},
      Room limit 0 level → (front rest).kind = .endOfInput →
      Run limit (tokens ++ rest) statements []
  | _, _, _, .nil, _, _, ended => .ended ended
  | _, _, _, .cons first apart behind, rest, room, ended => by
    rw [List.append_assoc]
    exact .statement first (room.mono (by omega))
      (apart_front apart (apart_of_kind (.inr (.inl ended)) _))
      (behind.run (room.mono (by omega)) ended)

theorem Stmt.WrittenList.run_whole {limit : Option Nat} {level : Nat} {statements : List Stmt}
    {tokens : List Token} (written : Stmt.WrittenList level statements tokens)
    (room : Room limit 0 level) : Run limit tokens statements [] := by
  rw [← List.append_nil tokens]
  exact written.run room rfl

theorem length_resumed_le (depth : Nat) (tokens : List Token) :
    (resumed depth tokens).length ≤ tokens.length - 1 := by
  rw [resumed, List.length_tail]
  exact Nat.sub_le_sub_right (lastSkipped_suffix depth tokens).length_le 1

theorem blamed_suffix (diagnostic : Diagnostic) (tokens rest : List Token) :
    blamed diagnostic tokens rest <:+ tokens ++ rest := by
  unfold blamed
  split
  · rcases tokens.eq_nil_or_concat' with rfl | ⟨earlier, last, rfl⟩
    · exact List.suffix_rfl
    · simp
  · exact List.suffix_append tokens rest

theorem resumed_suffix_tail (depth : Nat) (tokens : List Token) :
    resumed depth tokens <:+ tokens.tail := by
  apply List.suffix_of_suffix_length_le (resumed_suffix depth tokens) (List.tail_suffix tokens)
  rw [List.length_tail]
  exact length_resumed_le depth tokens

/-- Reading resumes behind all tokens of the refusal. -/
theorem resumed_blamed_suffix_rest (count : Nat) (diagnostic : Diagnostic)
    (tokens rest : List Token) : resumed count (blamed diagnostic tokens rest) <:+ rest := by
  have behind : (blamed diagnostic tokens rest).tail <:+ rest := by
    unfold blamed window
    split
    · cases tokens.getLast? with
      | none => exact List.tail_suffix rest
      | some => exact List.suffix_rfl
    · exact List.tail_suffix rest
  exact (resumed_suffix_tail count _).trans behind

/-- Reading resumes behind a part of the tokens that were there. -/
theorem resumed_blamed_suffix (count : Nat) (diagnostic : Diagnostic) (tokens rest : List Token) :
    resumed count (blamed diagnostic tokens rest) <:+ tokens ++ rest :=
  (resumed_blamed_suffix_rest count diagnostic tokens rest).trans (List.suffix_append tokens rest)

/-- Recovery passes at least one token. -/
theorem length_resumed_blamed_lt (count : Nat) (diagnostic : Diagnostic) {tokens rest : List Token}
    (present : (front (tokens ++ rest)).kind ≠ .endOfInput) :
    (resumed count (blamed diagnostic tokens rest)).length < (tokens ++ rest).length := by
  obtain ⟨token, more, whole, -⟩ := exists_cons_of_front rfl present
  have size := congrArg List.length whole
  rw [List.length_cons] at size
  have part := (blamed_suffix diagnostic tokens rest).length_le
  have shorter := length_resumed_le count (blamed diagnostic tokens rest)
  omega

/-- Recovery always goes on, so that every list is read to the end. -/
theorem exists_run (limit : Option Nat) (tokens : List Token) :
    ∃ statements diagnostics, Run limit tokens statements diagnostics := by
  induction size : tokens.length using Nat.strong_induction_on generalizing tokens with
  | _ size ih =>
    subst size
    by_cases ended : (front tokens).kind = .endOfInput
    · exact ⟨[], [], .ended ended⟩
    have standard : (Parser.start limit .standard ([] : List Token)).rules = .standard := rfl
    cases ran : ((Parser.start limit .standard []).facing tokens).statement with
    | accepted statement after =>
      obtain ⟨ending, level, taken, rest, rfl, written, room, apart, -⟩ :=
        Parser.written_of_accepted standard ran
      have shorter := List.length_pos_iff.mpr written.ne_nil
      obtain ⟨statements, diagnostics, behind⟩ := ih rest.length (by simp; omega) rest rfl
      exact ⟨_, _, .statement written room apart behind⟩
    | rejected diagnostic after =>
      obtain ⟨count, taken, rest, rfl, blame, refused, -⟩ := Parser.refused_of_rejected standard ran
      have shorter := length_resumed_blamed_lt count diagnostic ended
      obtain ⟨statements, diagnostics, behind⟩ := ih _ shorter _ rfl
      exact ⟨_, _, .recovery refused blame ended behind⟩
    | unfinished => exact (Parser.statement_ne_unfinished standard ran).elim

/-- A list has only one run, since parsing answers it. -/
theorem Run.unique {limit : Option Nat} {tokens : List Token} {statements others : List Stmt}
    {diagnostics differents : List Diagnostic} (run : Run limit tokens statements diagnostics)
    (other : Run limit tokens others differents) :
    statements = others ∧ diagnostics = differents := by
  have same := run.result.symm.trans other.result
  simpa using same

/-- Parsing a list of tokens comes down to its run. -/
theorem result_eq_iff {limit : Option Nat} {tokens : List Token} {statements : List Stmt}
    {diagnostics : List Diagnostic} :
    (Parser.start limit .standard tokens).result = (⟨statements⟩, diagnostics) ↔
      Run limit tokens statements diagnostics := by
  refine ⟨fun same => ?_, Run.result⟩
  obtain ⟨statements, diagnostics, run⟩ := exists_run limit tokens
  rw [run.result] at same
  cases same
  exact run

theorem Run.parse {tokens : List Token} {statements : List Stmt} {diagnostics : List Diagnostic}
    (run : Run (some Parser.standardLimit) tokens statements diagnostics) :
    parse tokens = (⟨statements⟩, diagnostics) :=
  run.result

/-- What parsing answers is found by a run. -/
theorem parse_run (tokens : List Token) :
    Run (some Parser.standardLimit) tokens (parse tokens).1.statements (parse tokens).2 :=
  result_eq_iff.mp rfl

end ScriptReader
