import ScriptReader.Proofs.Viability

/-! # The faults of a program

A fault is a statement that is refused. Beside its diagnostic stands the parser that was left
behind, which tells where the fault was noticed and where recovery starts. The faults of a program
are those of its run, in the same order.
-/

namespace ScriptReader

/-- A refused statement: its diagnostic, and the parser that the refusal left. -/
structure Fault (σ : Type) where
  diagnostic : Diagnostic
  after : Parser σ

namespace Parser

variable {σ : Type} [TokenStream σ]

/-- The faults from the current token to the end of input. -/
def faults (p : Parser σ) : List (Fault σ) :=
  if _ended : p.current.kind = .endOfInput then []
  else
    match _ran : p.statement with
    | .accepted _ after => faults after.advance
    | .rejected diagnostic after =>
      ⟨diagnostic, after⟩ :: faults (after.record diagnostic).recover.advance
    | .unfinished => []
termination_by p.ahead
decreasing_by
  · have moved := p.statement_moved
    rw [_ran] at moved
    exact ahead_advance_lt _ended moved.behind_le
  · have moved := p.statement_moved
    rw [_ran] at moved
    exact ahead_advance_lt _ended (Nat.le_trans (behind_recover_le _) moved.behind_le)

variable {p after : Parser σ}

theorem faults_ended (ended : p.current.kind = .endOfInput) : p.faults = [] := by
  rw [faults, dif_pos ended]

theorem faults_accepted {statement : Stmt} (present : p.current.kind ≠ .endOfInput)
    (ran : p.statement = .accepted statement after) : p.faults = after.advance.faults := by
  rw [faults, dif_neg present]
  split
  · next ran' =>
    rw [ran] at ran'
    cases ran'
    rfl
  · next ran' => rw [ran] at ran'; cases ran'
  · next ran' => rw [ran] at ran'; cases ran'

theorem faults_rejected {diagnostic : Diagnostic} (present : p.current.kind ≠ .endOfInput)
    (ran : p.statement = .rejected diagnostic after) :
    p.faults = ⟨diagnostic, after⟩ :: (after.record diagnostic).recover.advance.faults := by
  rw [faults, dif_neg present]
  split
  · next ran' => rw [ran] at ran'; cases ran'
  · next ran' =>
    rw [ran] at ran'
    cases ran'
    rfl
  · next ran' => rw [ran] at ran'; cases ran'

end Parser

section List

variable {p : Parser (List Token)} {limit : Option Nat} {tokens rest : List Token}

theorem Parser.Stands.record {nest : Nat} (stands : p.Stands limit nest)
    (diagnostic : Diagnostic) : (p.record diagnostic).Stands limit nest :=
  ⟨stands.standard, stands.limit_eq, stands.nesting_eq⟩

/-- Behind a written statement the faults are those of what follows. -/
theorem Stmt.Written.faults {ending : Option Edge} {level : Nat} {statement : Stmt}
    (written : Stmt.Written ending level statement tokens) (stands : p.Stands limit 0)
    (room : Room limit 0 level) (apart : Apart ending (front rest).kind) :
    (p.facing (tokens ++ rest)).faults = (p.facing rest).faults := by
  have present := written.front_kind.2
  rw [← front_append_of_ne_nil written.ne_nil rest] at present
  have read := Parser.statement_accepted stands.standard written (stands.room room) apart
  rw [Parser.faults_accepted present read, Parser.advance_window _ written.ne_nil]

/-- A refusal is a fault, and the others are those of what recovery leaves. -/
theorem Stmt.Refused.faults {count : Nat} {diagnostic : Diagnostic}
    (refused : Stmt.Refused limit 0 count diagnostic tokens) (stands : p.Stands limit 0)
    (closed : p.openBlocks = 0) (blame : front rest = diagnostic.token)
    (present : (front (tokens ++ rest)).kind ≠ .endOfInput) :
    (p.facing (tokens ++ rest)).faults =
      ⟨diagnostic, (p.opened count).facing (blamed diagnostic tokens rest)⟩ ::
        ((p.record diagnostic).facing (resumed count (blamed diagnostic tokens rest))).faults := by
  have closed' : (p.record diagnostic).openBlocks = 0 := closed
  rw [Parser.faults_rejected present (Parser.statement_rejected stands refused blame),
    ← Parser.recover_facing closed' count (blamed diagnostic tokens rest)]
  rfl

/-- The diagnostics of a run are those of its faults. -/
theorem Run.faults {statements : List Stmt} {diagnostics : List Diagnostic}
    (run : Run limit tokens statements diagnostics) :
    ∀ {p : Parser (List Token)}, p.Stands limit 0 → p.openBlocks = 0 →
      (p.facing tokens).faults.map Fault.diagnostic = diagnostics := by
  induction run with
  | ended ended =>
    intro p _ _
    rw [Parser.faults_ended ended]
    rfl
  | statement written room apart _ ih =>
    intro p stands closed
    rw [written.faults stands room apart, ih stands closed]
  | @recovery count diagnostic statements diagnostics tokens rest refused blame present _ ih =>
    intro p stands closed
    have closed' : (p.record diagnostic).openBlocks = 0 := closed
    rw [refused.faults stands closed blame present, List.map_cons,
      ih (stands.record diagnostic) closed']

end List

/-- What parsing reports about a list of tokens are the diagnostics of its faults. -/
theorem parse_diagnostics (tokens : List Token) :
    (parse tokens).2 = (Parser.ofStream tokens).faults.map Fault.diagnostic := by
  rw [Parser.ofStream, Parser.start_eq_facing]
  exact ((parse_run tokens).faults ⟨rfl, rfl, rfl⟩ rfl).symm

end ScriptReader
