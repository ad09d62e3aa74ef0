import ScriptReader.Parser.Basic

/-! # Recovery

After a refused statement the parser skips to the next boundary: a semicolon outside every block,
a closing brace that no open block accounts for, the brace that closes the outermost block the
statement had opened, or the end of input. A semicolon right behind that brace still belongs to the
statement, and an `else` right behind it makes the skipping go on.
-/

namespace ScriptReader.Parser

variable {σ : Type} [TokenStream σ]

/-- Skips to the boundary, with the number of blocks open at the current token. The current token is
then the last one skipped. -/
def skip (depth : Nat) (p : Parser σ) : Parser σ :=
  if _ended : p.current.kind = .endOfInput then p
  else
    match p.current.kind with
    | .semicolon => if depth = 0 then p else skip depth p.advance
    | .openCurly => skip (depth + 1) p.advance
    | .closeCurly =>
      if depth = 0 then p
      else if depth = 1 ∧ p.peek.kind ≠ .elseWord then
        if p.peek.kind = .semicolon then p.advance else p
      else skip (depth - 1) p.advance
    | _ => skip depth p.advance
termination_by p.ahead
decreasing_by
  all_goals exact Nat.lt_of_le_of_lt p.ahead_advance_le (behind_lt_ahead _ended)

/-- Skips what is left of the statement being read, whose blocks are all given up. -/
def recover (p : Parser σ) : Parser σ := skip p.openBlocks { p with openBlocks := 0 }

theorem behind_skip_le (depth : Nat) (p : Parser σ) : (p.skip depth).behind ≤ p.behind := by
  have less (p : Parser σ) {count : Nat} (further : count ≤ p.advance.behind) :
      count ≤ p.behind := Nat.le_trans further p.behind_advance_le
  fun_induction skip depth p with
  | case1 => exact Nat.le_refl _
  | case2 => exact Nat.le_refl _
  | case3 _ _ _ _ _ ih => exact less _ ih
  | case4 _ _ _ _ ih => exact less _ ih
  | case5 => exact Nat.le_refl _
  | case6 _ p => exact p.behind_advance_le
  | case7 => exact Nat.le_refl _
  | case8 _ _ _ _ _ _ ih => exact less _ ih
  | case9 _ _ _ _ _ _ ih => exact less _ ih

theorem behind_recover_le (p : Parser σ) : p.recover.behind ≤ p.behind := behind_skip_le _ _

end ScriptReader.Parser
