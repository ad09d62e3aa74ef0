import ScriptReader.Proofs.Completion

/-! # The first diagnostic

The first diagnostic of a list is decided by the tokens up to and with the one it is about, and the
tokens before that one are a beginning of a program. The place of that token is what the parser that
was left still has ahead of it, counted from the end.
-/

namespace ScriptReader

/-- The number of tokens from the one that a diagnostic is about to the end, when the given parser
was left behind. -/
def Diagnostic.onward {σ : Type} [TokenStream σ] (diagnostic : Diagnostic)
    (after : Parser σ) : Nat :=
  if diagnostic.cause.atLookahead then after.behind else after.ahead

/-- The diagnostic of the first statement that is refused, with the number of tokens from the one it
is about to the end. -/
def Parser.firstFault? {σ : Type} [TokenStream σ] (p : Parser σ) : Option (Diagnostic × Nat) :=
  if _ended : p.current.kind = .endOfInput then none
  else
    match _ran : p.statement with
    | .accepted _ after => firstFault? after.advance
    | .rejected diagnostic after => some (diagnostic, diagnostic.onward after)
    | .unfinished => none
termination_by p.ahead
decreasing_by
  have moved := p.statement_moved
  rw [_ran] at moved
  exact ahead_advance_lt _ended moved.behind_le

namespace Parser

variable {p after : Parser (List Token)} {diagnostic : Diagnostic} {tokens read rest : List Token}

theorem firstFault?_accepted {statement : Stmt} (present : p.current.kind ≠ .endOfInput)
    (ran : p.statement = .accepted statement after) : p.firstFault? = after.advance.firstFault? := by
  rw [firstFault?, dif_neg present]
  split
  · next ran' =>
    rw [ran] at ran'
    cases ran'
    rfl
  · next ran' => rw [ran] at ran'; cases ran'
  · next ran' => rw [ran] at ran'; cases ran'

theorem firstFault?_rejected (present : p.current.kind ≠ .endOfInput)
    (ran : p.statement = .rejected diagnostic after) :
    p.firstFault? = some (diagnostic, diagnostic.onward after) := by
  rw [firstFault?, dif_neg present]
  split
  · next ran' => rw [ran] at ran'; cases ran'
  · next ran' =>
    rw [ran] at ran'
    cases ran'
    rfl
  · next ran' => rw [ran] at ran'; cases ran'

theorem ahead_facing (p : Parser (List Token)) (plain : Plain tokens) :
    (p.facing tokens).ahead = tokens.length := by
  match tokens with
  | [] => rfl
  | [first] =>
    have := Token.weight_eq_one (plain first (by simp))
    simpa [ahead, behind, facing, TokenStream.remaining] using this
  | first :: second :: rest =>
    have := Token.weight_eq_one (plain first (by simp))
    have := Token.weight_eq_one (plain second (by simp))
    simp only [ahead, behind, facing, TokenStream.remaining, front_cons, List.tail_cons,
      List.drop_succ_cons, List.drop_zero, List.length_cons]
    omega

theorem behind_window (p : Parser (List Token)) (nonempty : read ≠ []) (plain : Plain rest) :
    (p.facing (window read rest)).behind = rest.length := by
  obtain ⟨last, held⟩ := exists_window_eq_cons nonempty rest
  rw [held]
  match rest with
  | [] => rfl
  | first :: rest =>
    have := Token.weight_eq_one (plain first (by simp))
    simp only [behind, facing, TokenStream.remaining, front_cons, List.tail_cons,
      List.drop_succ_cons, List.drop_zero, List.length_cons]
    omega

end Parser

theorem Stmt.Refused.onward {limit : Option Nat} {nest count : Nat} {diagnostic : Diagnostic}
    {tokens rest : List Token} (refused : Stmt.Refused limit nest count diagnostic tokens)
    (p : Parser (List Token)) (plain : Plain rest) :
    diagnostic.onward ((p.opened count).facing (blamed diagnostic tokens rest)) = rest.length := by
  unfold Diagnostic.onward blamed
  split
  · next late => rw [Parser.behind_window _ (refused.ne_nil late) plain]
  · rw [Parser.ahead_facing _ plain]

/-- Where a run finds its first diagnostic, the tokens before it are written statements and a
refusal. -/
theorem Run.firstFault {limit : Option Nat} {tokens : List Token} {statements : List Stmt}
    {diagnostics : List Diagnostic} (run : Run limit tokens statements diagnostics)
    {p : Parser (List Token)} (stands : p.Stands limit 0) :
    ∀ {diagnostic}, Plain tokens → diagnostics.head? = some diagnostic →
      ∃ count taken rest, tokens = taken ++ rest ∧ diagnostic.token = front rest ∧
        Stmt.RefusedList limit .endOfInput 0 count diagnostic taken ∧
        (p.facing tokens).firstFault? = some (diagnostic, rest.length) := by
  induction run with
  | ended => nofun
  | @statement ending level statement statements diagnostics tokens rest written room apart _ ih =>
    intro diagnostic plain found
    obtain ⟨count, taken, rest, rfl, blame, refused, located⟩ :=
      ih (plain_append.mp plain).2 found
    have read := Parser.statement_accepted stands.standard written (stands.room room) apart
    have present := written.front_kind.2
    rw [← front_append_of_ne_nil written.ne_nil (taken ++ rest)] at present
    rw [front_append_eq, ← blame] at apart
    refine ⟨count, tokens ++ taken, rest, (List.append_assoc ..).symm, blame,
      .later written room apart refused, ?_⟩
    rw [Parser.firstFault?_accepted present read, Parser.advance_window _ written.ne_nil, located]
  | @recovery count diagnostic statements diagnostics tokens rest refused blame present _ _ =>
    intro found plain same
    obtain rfl : diagnostic = found := by simpa using same
    have read := Parser.statement_rejected stands refused blame
    have inside := present
    rw [front_append_eq, blame] at inside
    refine ⟨count, tokens, rest, rfl, blame.symm, .first inside inside refused, ?_⟩
    rw [Parser.firstFault?_rejected present read, refused.onward p (plain_append.mp plain).2]

/-- Written statements and a refusal, followed by the token that it blames, begin a run whose first
diagnostic is that of the refusal. -/
theorem Stmt.RefusedList.run {limit : Option Nat} : ∀ {closer : Kind} {nest count : Nat}
    {diagnostic : Diagnostic} {tokens : List Token},
    Stmt.RefusedList limit closer nest count diagnostic tokens → closer = .endOfInput → nest = 0 →
    ∀ {rest : List Token}, front rest = diagnostic.token →
      ∃ statements diagnostics, Run limit (tokens ++ rest) statements (diagnostic :: diagnostics)
  | _, _, count, diagnostic, tokens, .first _ present inner, _, nested, rest, blame => by
    subst nested
    rw [← blame, ← front_append_eq] at present
    obtain ⟨statements, diagnostics, behind⟩ :=
      exists_run limit (resumed count (blamed diagnostic tokens rest))
    exact ⟨_, _, .recovery inner blame present behind⟩
  | _, _, _, _, _, .later written room apart behind, ends, nested, rest, blame => by
    obtain ⟨statements, diagnostics, run⟩ := behind.run ends nested blame
    subst nested
    rw [← blame, ← front_append_eq] at apart
    rw [List.append_assoc]
    exact ⟨_, _, .statement written room apart run⟩

/-- What begins with the tokens of a refusal and the one that it blames is parsed with the
diagnostic of the refusal first. -/
theorem Stmt.RefusedList.head_result {limit : Option Nat} {count : Nat} {diagnostic : Diagnostic}
    {tokens rest : List Token}
    (refused : Stmt.RefusedList limit .endOfInput 0 count diagnostic tokens)
    (blame : front rest = diagnostic.token) :
    (Parser.start limit .standard (tokens ++ rest)).result.2.head? = some diagnostic := by
  obtain ⟨statements, diagnostics, run⟩ := refused.run rfl rfl blame
  rw [run.result]
  rfl

/-- Without a limit, the tokens of a refusal begin a program. -/
theorem Stmt.RefusedList.begins {count : Nat} {diagnostic : Diagnostic} {tokens : List Token}
    (refused : Stmt.RefusedList none .endOfInput 0 count diagnostic tokens) :
    ∃ more, Plain more ∧ (Parser.start none .standard (tokens ++ more)).result.2 = [] := by
  obtain ⟨more, plain, -, level, statements, written⟩ := refused.completes
  have run : Run none _ _ _ := written.run_whole nofun
  exact ⟨more, plain, by rw [run.result]⟩

/-- Without a limit on nesting, the tokens before the first diagnostic begin a program, and whatever
goes on with the token it is about has the same first diagnostic. -/
theorem first_diagnostic_viable (tokens : List Token) (plain : Plain tokens)
    (reported : (Parser.start none .standard tokens).result.2 ≠ []) :
    ∃ diagnostic place,
      (Parser.start none .standard tokens).result.2.head? = some diagnostic ∧
      (Parser.start none .standard tokens).firstFault? = some (diagnostic, tokens.length - place) ∧
      place ≤ tokens.length ∧ front (tokens.drop place) = diagnostic.token ∧
      (∃ more, Plain more ∧
        (Parser.start none .standard (tokens.take place ++ more)).result.2 = []) ∧
      (place < tokens.length → ∀ others, tokens.take (place + 1) <+: others →
        (Parser.start none .standard others).result.2.head? = some diagnostic) ∧
      (place = tokens.length ↔ ∃ more, Plain more ∧
        (Parser.start none .standard (tokens ++ more)).result.2 = []) := by
  obtain ⟨statements, diagnostics, run⟩ := exists_run none tokens
  rw [run.result] at reported
  obtain ⟨diagnostic, later, rfl⟩ := List.exists_cons_of_ne_nil reported
  obtain ⟨count, taken, rest, rfl, blame, refused, located⟩ :=
    run.firstFault (p := .start none .standard []) ⟨rfl, rfl, rfl⟩ plain rfl
  refine ⟨diagnostic, taken.length, by rw [run.result]; rfl, ?_, by simp, by simp [blame],
    ?_, ?_, ?_⟩
  · rw [Parser.start_eq_facing, located]
    simp
  · simpa using refused.begins
  · intro inside others begun
    obtain ⟨first, rest, rfl⟩ : ∃ first others, rest = first :: others :=
      List.exists_cons_of_ne_nil (by rintro rfl; simp at inside)
    obtain ⟨behind, rfl⟩ := begun
    have whole : (taken ++ first :: rest).take (taken.length + 1) ++ behind =
        taken ++ first :: behind := by
      simp [List.take_append, List.take_of_length_le]
    rw [whole]
    exact refused.head_result blame.symm
  · constructor
    · intro last
      obtain rfl : rest = [] := by simpa using last
      simpa using refused.begins
    · rintro ⟨more, -, clean⟩
      by_contra inside
      obtain ⟨first, rest, rfl⟩ : ∃ first others, rest = first :: others :=
        List.exists_cons_of_ne_nil (by rintro rfl; simp at inside)
      have head := refused.head_result
        (show front (first :: (rest ++ more)) = diagnostic.token from blame.symm)
      rw [List.append_assoc, List.cons_append] at clean
      rw [clean] at head
      cases head

/-- Instead of the second token, a declaration could go on with a name. -/
theorem first_diagnostic_viable_varWord :
    ∃ diagnostic place,
      (Parser.start none .standard [Token.varWord, .assign]).result.2.head? = some diagnostic ∧
      (∃ more, Plain more ∧ (Parser.start none .standard
        ([Token.varWord, .assign].take place ++ more)).result.2 = []) ∧
      (place < 2 → ∀ others, [Token.varWord, .assign].take (place + 1) <+: others →
        (Parser.start none .standard others).result.2.head? = some diagnostic) := by
  have refused :
      Stmt.RefusedList none .endOfInput 0 0 (.unexpected .identifier .assign) [.varWord] :=
    .first (by decide) (by decide) (.name rfl (by decide))
  have head := refused.head_result (show front [.assign] = _ from rfl)
  have reported : (Parser.start none .standard [Token.varWord, .assign]).result.2 ≠ [] := by
    intro clean
    have head : (Parser.start none .standard [Token.varWord, .assign]).result.2.head? = _ := head
    rw [clean] at head
    cases head
  obtain ⟨diagnostic, place, found, -, -, -, begins, decided, -⟩ :=
    first_diagnostic_viable [Token.varWord, .assign] (by decide) reported
  exact ⟨diagnostic, place, found, begins, decided⟩

end ScriptReader
