import ScriptReader.Proofs.Isolation

/-! # Programs one behind the other

A program that is read without a diagnostic and ends in a semicolon can be cut off behind it. The
semicolon closes the last statement, whose blocks are all closed by then, so the first token of what
follows decides nothing any more: neither an `else`, nor an operator, nor another semicolon is drawn
in. What follows is read as if it stood alone, whether it is well formed or not.
-/

namespace ScriptReader

variable {limit : Option Nat} {tokens rest : List Token}

/-- An expression that ends with a block does not end in a semicolon, so a statement that does has
this semicolon for its own. -/
theorem Stmt.Written.ending_eq_none {ending : Option Edge} {level : Nat} {statement : Stmt}
    (written : Stmt.Written ending level statement tokens)
    (ends : ∀ last ∈ tokens.getLast?, last.kind = .semicolon) : ending = none := by
  cases written with
  | declaration => rfl
  | ret => rfl
  | expression => rfl
  | @bare first edge level value tokens given block =>
    have final := List.getLast?_eq_some_getLast (List.cons_ne_nil first tokens)
    exact (given.sealed.last_ne given.opens _ final (ends _ final)).elim

/-- Behind tokens that end in a semicolon and are read without a diagnostic, another run goes on. -/
theorem Run.append {statements : List Stmt} {diagnostics : List Diagnostic}
    (run : Run limit tokens statements diagnostics) (clean : diagnostics = [])
    (plain : Plain tokens) (ends : ∀ last ∈ tokens.getLast?, last.kind = .semicolon)
    {more : List Stmt} {others : List Diagnostic} (behind : Run limit rest more others) :
    Run limit (tokens ++ rest) (statements ++ more) others := by
  induction run with
  | @ended tokens ended =>
    obtain rfl : tokens = [] := by
      by_contra nonempty
      exact plain.front nonempty ended
    exact behind
  | @statement ending level statement statements diagnostics tokens left written room apart _ ih =>
    rw [plain_append] at plain
    rw [List.append_assoc]
    rcases left.eq_nil_or_concat' with rfl | ⟨earlier, last, rfl⟩
    · -- The last statement: its own semicolon separates it from everything that may follow.
      rw [List.append_nil] at ends
      obtain rfl := written.ending_eq_none ends
      exact .statement written room (apart_none _) (ih clean plain.2 nofun)
    · have ends' : ∀ final ∈ (earlier ++ [last]).getLast?, final.kind = .semicolon := by
        intro final among
        apply ends final
        rwa [List.getLast?_append_of_ne_nil tokens (by simp)]
      refine .statement written room ?_ (ih clean plain.2 ends')
      rwa [front_append_of_ne_nil (by simp)]
  | recovery => cases clean

/-- A program without a fault that ends in a semicolon does not matter to what stands behind it: its
statements come first, and all diagnostics are those of what follows. -/
theorem parse_append_of_clean (tokens rest : List Token) (plain : Plain tokens)
    (clean : (parse tokens).2 = [])
    (ends : tokens.getLast?.map Token.kind = some .semicolon) :
    parse (tokens ++ rest) =
      (⟨(parse tokens).1.statements ++ (parse rest).1.statements⟩, (parse rest).2) := by
  have ends' : ∀ last ∈ tokens.getLast?, last.kind = .semicolon := by
    intro last final
    rw [Option.mem_def.mp final] at ends
    exact Option.some.inj ends
  exact ((parse_run tokens).append clean plain ends' (parse_run rest)).parse

/-- A parenthesis behind the semicolon does not call the function in front of it. -/
theorem parse_append_of_clean_function :
    parse ([Token.fnWord, .openParen, .closeParen, .openCurly, .closeCurly, .semicolon] ++
        [.openParen, .identifier "x"]) =
      (⟨(parse [Token.fnWord, .openParen, .closeParen, .openCurly, .closeCurly,
          .semicolon]).1.statements ++ (parse [Token.openParen, .identifier "x"]).1.statements⟩,
        (parse [Token.openParen, .identifier "x"]).2) := by
  have body : Block.Written 0 _ [Token.openCurly, .closeCurly] := .mk rfl .nil rfl
  have function := Expr.Written.function (show Token.fnWord.kind = _ from rfl)
    (show Token.openParen.kind = _ from rfl) (.none (show Token.closeParen.kind = _ from rfl)) body
  have statement := Stmt.Written.expression function (show Token.semicolon.kind = _ from rfl)
  have room : Room (some Parser.standardLimit) 0 1 := room_of_le (by decide)
  have run := Run.statement statement room (apart_none _) (.nil _)
  refine parse_append_of_clean _ _ (by decide) ?_ (by decide)
  exact congrArg Prod.snd run.parse

end ScriptReader
