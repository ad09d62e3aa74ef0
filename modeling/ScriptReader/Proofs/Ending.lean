import ScriptReader.Proofs.Faults
import ScriptReader.Proofs.Isolation

/-! # Behind the end of input

Reading stops at the first end of input, and what stands behind it does not matter, unless the last
statement is refused and recovery runs into this very end. Reading then steps over it as it steps
over every other boundary, and what stands behind is read as if it stood alone.
-/

namespace ScriptReader

/-- Recovery from the fault runs into the end of input. -/
def Fault.RunsOut {σ : Type} [TokenStream σ] (fault : Fault σ) : Prop :=
  (fault.after.record fault.diagnostic).recover.current.kind = .endOfInput

/-- To look at the end of a list is to look at the end of input. -/
theorem front_append_endOfInput (tokens rest : List Token) :
    front (tokens ++ .endOfInput :: rest) = front tokens := by
  cases tokens <;> rfl

theorem blamed_append (diagnostic : Diagnostic) (tokens rest more : List Token) :
    blamed diagnostic tokens (rest ++ more) = blamed diagnostic tokens rest ++ more := by
  unfold blamed
  split
  · rw [window, window, List.append_assoc]
  · rfl

/-- Recovery does not look behind the end of input. -/
theorem lastSkipped_append {tokens : List Token} (plain : Plain tokens) (depth : Nat)
    (rest : List Token) :
    lastSkipped depth (tokens ++ .endOfInput :: rest) =
      lastSkipped depth tokens ++ .endOfInput :: rest := by
  induction tokens generalizing depth with
  | nil => rfl
  | cons token tokens ih =>
    obtain ⟨present, plain⟩ := plain_cons.mp plain
    rw [List.cons_append, lastSkipped, lastSkipped, front_append_endOfInput]
    cases kind : token.kind with
    | endOfInput => exact (present kind).elim
    | semicolon =>
      dsimp only
      split
      · rfl
      · exact ih plain depth
    | openCurly => exact ih plain (depth + 1)
    | closeCurly =>
      dsimp only
      split
      · rfl
      · split
        · split <;> rfl
        · exact ih plain (depth - 1)
    | _ => exact ih plain depth

/-- Among tokens without an end of input, recovery runs out only when it skips all of them. -/
theorem Fault.runsOut_iff {p : Parser (List Token)} {count : Nat} {tokens : List Token}
    (closed : p.openBlocks = 0) (plain : Plain tokens) (diagnostic : Diagnostic) :
    Fault.RunsOut ⟨diagnostic, (p.opened count).facing tokens⟩ ↔
      lastSkipped count tokens = [] := by
  have closed' : (p.record diagnostic).openBlocks = 0 := closed
  have skipped := congrArg Parser.current (Parser.recover_eq_facing closed' count tokens)
  change (((p.opened count).facing tokens).record diagnostic).recover.current = _ at skipped
  rw [Fault.RunsOut, skipped, Parser.current_facing]
  constructor
  · intro ended
    by_contra some
    exact (plain.suffix (lastSkipped_suffix count tokens)).front some ended
  · intro none
    rw [none]
    rfl

variable {limit : Option Nat} {tokens rest : List Token} {statements : List Stmt}
  {diagnostics : List Diagnostic}

/-- Unless recovery runs out, a run ends where it ends without the tokens behind. -/
theorem Run.append_endOfInput (run : Run limit tokens statements diagnostics) :
    ∀ {p : Parser (List Token)}, p.Stands limit 0 → p.openBlocks = 0 → Plain tokens →
      (∀ fault ∈ (p.facing tokens).faults, ¬ fault.RunsOut) →
      Run limit (tokens ++ .endOfInput :: rest) statements diagnostics := by
  induction run with
  | @ended tokens ended =>
    intro p _ _ plain _
    exact .ended (by rwa [front_append_endOfInput])
  | statement written room apart _ ih =>
    intro p stands closed plain none
    rw [written.faults stands room apart] at none
    rw [List.append_assoc]
    refine .statement written room ?_ (ih stands closed (plain_append.mp plain).2 none)
    rwa [front_append_endOfInput]
  | @recovery count diagnostic statements diagnostics tokens more refused blame present _ ih =>
    intro p stands closed plain none
    rw [refused.faults stands closed blame present, List.forall_mem_cons] at none
    have plain' := plain.suffix (blamed_suffix diagnostic tokens more)
    have stopped : lastSkipped count (blamed diagnostic tokens more) ≠ [] :=
      fun out => none.1 ((Fault.runsOut_iff closed plain' diagnostic).mpr out)
    have behind :=
      ih (stands.record diagnostic) closed (plain'.suffix (resumed_suffix count _)) none.2
    rw [List.append_assoc]
    refine .recovery refused (by rwa [front_append_endOfInput]) ?_ ?_
    · rwa [← List.append_assoc, front_append_endOfInput]
    · rw [blamed_append, resumed, lastSkipped_append plain', List.tail_append_of_ne_nil stopped]
      exact behind

/-- Where recovery runs out, the run goes on behind the end of input. -/
theorem Run.append_of_runsOut (run : Run limit tokens statements diagnostics) :
    ∀ {p : Parser (List Token)}, p.Stands limit 0 → p.openBlocks = 0 → Plain tokens →
      (∃ fault ∈ (p.facing tokens).faults, fault.RunsOut) →
      ∀ {more others}, Run limit rest more others →
        Run limit (tokens ++ .endOfInput :: rest) (statements ++ more) (diagnostics ++ others) := by
  induction run with
  | @ended tokens ended =>
    intro p _ _ _ ⟨fault, among, _⟩
    rw [Parser.faults_ended ended] at among
    cases among
  | statement written room apart _ ih =>
    intro p stands closed plain out more others behind
    rw [written.faults stands room apart] at out
    rw [List.append_assoc]
    refine .statement written room ?_ (ih stands closed (plain_append.mp plain).2 out behind)
    rwa [front_append_endOfInput]
  | @recovery count diagnostic statements diagnostics tokens left refused blame present run ih =>
    intro p stands closed plain out more others behind
    have plain' := plain.suffix (blamed_suffix diagnostic tokens left)
    rw [refused.faults stands closed blame present, List.exists_mem_cons_iff,
      Fault.runsOut_iff closed plain'] at out
    rw [List.append_assoc, List.cons_append]
    refine .recovery refused (by rwa [front_append_endOfInput]) ?_ ?_
    · rwa [← List.append_assoc, front_append_endOfInput]
    rw [blamed_append, resumed, lastSkipped_append plain']
    by_cases stopped : lastSkipped count (blamed diagnostic tokens left) = []
    · rw [resumed, stopped] at run
      obtain ⟨rfl, rfl⟩ := run.unique (.nil limit)
      rw [stopped]
      exact behind
    · rw [List.tail_append_of_ne_nil stopped]
      exact ih (stands.record diagnostic) closed (plain'.suffix (resumed_suffix count _))
        (out.resolve_left stopped) behind

/-- A declaration that breaks off before its name. -/
theorem refused_varWord (limit : Option Nat) :
    Stmt.Refused limit 0 0 (.unexpected .identifier .endOfInput) [Token.varWord] :=
  .name rfl (by decide)

/-- A statement that is a single name. -/
theorem run_identifier (name : String) :
    Run (some Parser.standardLimit) [.identifier name, .semicolon]
      [.expression (.identifier name) (.identifier (.ofToken (.identifier name)))] [] :=
  .statement (.expression (Expr.written_identifier name) rfl) (room_of_le (by decide)) nofun
    (.nil _)

/-- What stands behind the end of input is not read, unless the last statement before it is refused
and recovery runs into it. In that case it is read as if it stood alone. -/
theorem parse_endOfInput (tokens rest : List Token) (plain : Plain tokens) :
    ((∀ fault ∈ (Parser.ofStream tokens).faults, ¬ fault.RunsOut) →
      parse (tokens ++ .endOfInput :: rest) = parse tokens) ∧
    ((∃ fault ∈ (Parser.ofStream tokens).faults, fault.RunsOut) →
      parse (tokens ++ .endOfInput :: rest) = joined (parse tokens) (parse rest)) := by
  have run := parse_run tokens
  rw [Parser.ofStream, Parser.start_eq_facing]
  constructor
  · intro none
    exact (run.append_endOfInput ⟨rfl, rfl, rfl⟩ rfl plain none).parse
  · intro out
    exact (run.append_of_runsOut ⟨rfl, rfl, rfl⟩ rfl plain out (parse_run rest)).parse

/-- Behind a declaration that breaks off, the end of input is stepped over. -/
theorem parse_endOfInput_varWord :
    parse ([Token.varWord] ++ .endOfInput :: [.identifier "x", .semicolon]) =
      joined (parse [Token.varWord]) (parse [Token.identifier "x", .semicolon]) ∧
    parse ([Token.identifier "x", .semicolon] ++ .endOfInput :: [.varWord]) =
      parse [Token.identifier "x", .semicolon] := by
  constructor
  · refine (parse_endOfInput [.varWord] _ (by decide)).2 ?_
    rw [Parser.ofStream, Parser.start_eq_facing,
      show [Token.varWord] = [Token.varWord] ++ [] from rfl,
      (refused_varWord _).faults ⟨rfl, rfl, rfl⟩ rfl rfl (by decide)]
    exact ⟨_, .head _, (Fault.runsOut_iff rfl (by decide) _).mpr rfl⟩
  · refine (parse_endOfInput [.identifier "x", .semicolon] _ (by decide)).1 ?_
    have clean := parse_diagnostics [.identifier "x", .semicolon]
    rw [(run_identifier "x").parse, eq_comm, List.map_eq_nil_iff] at clean
    rw [clean]
    exact List.forall_mem_nil _

/-- So what stands behind the first end of input can show up in the program. -/
theorem parse_behind_endOfInput :
    (parse [Token.varWord, .endOfInput, .identifier "x", .semicolon]).1 =
      ⟨[.expression (.identifier "x") (.identifier (.ofToken (.identifier "x")))]⟩ ∧
    (parse [Token.varWord]).1 = {} := by
  have resumes : resumed 0 (blamed (.unexpected .identifier .endOfInput) [Token.varWord]
      [.endOfInput, .identifier "x", .semicolon]) = [.identifier "x", .semicolon] := rfl
  have whole := Run.recovery (refused_varWord _) rfl (by decide)
    (resumes.symm ▸ run_identifier "x")
  have alone : Run _ ([Token.varWord] ++ []) [] _ :=
    .recovery (refused_varWord (some Parser.standardLimit)) rfl (by decide) (.nil _)
  exact ⟨congrArg Prod.fst whole.parse, congrArg Prod.fst alone.parse⟩

end ScriptReader
