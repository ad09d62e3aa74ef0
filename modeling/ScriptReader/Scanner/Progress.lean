import ScriptReader.Scanner.Basic
import ScriptReader.Token.Stream

/-! # Progress of the scanner

Every token but the end of input passes at least one byte. A scanner is therefore a token stream
whose bytes ahead bound the tokens to come, and a text scans to a finite list.
-/

namespace ScriptReader.Scanner

theorem ahead_skipWhile_le (accept : UInt8 → Bool) (s : Scanner) :
    (s.skipWhile accept).ahead ≤ s.ahead := by
  fun_induction skipWhile accept s with
  | case1 s _ _ _ step_le => exact Nat.le_trans step_le s.ahead_step_le
  | case2 => exact Nat.le_refl _
  | case3 => exact Nat.le_refl _

theorem ahead_skipWhile_lt {accept : UInt8 → Bool} {s : Scanner} {byte : UInt8}
    (held : s.current = some byte) (accepted : accept byte = true) :
    (s.skipWhile accept).ahead < s.ahead := by
  have unfolded : s.skipWhile accept = s.step.skipWhile accept := by
    rw [skipWhile]
    split
    · next held' =>
      obtain rfl := Option.some.inj (held.symm.trans held')
      exact if_pos accepted
    · next missing => simp [held] at missing
  rw [unfolded]
  exact Nat.lt_of_le_of_lt (ahead_skipWhile_le accept s.step) (ahead_step_lt (by simp [held]))

theorem ahead_skip_le (s : Scanner) (count : Nat) : (s.skip count).ahead ≤ s.ahead := by
  induction count generalizing s with
  | zero => exact Nat.le_refl _
  | succ count ih => exact Nat.le_trans (ih s.step) s.ahead_step_le

theorem width_pos (s : Scanner) : 0 < s.width := by
  unfold width
  cases s.source.utf8DecodeChar? s.position with
  | none => exact Nat.one_pos
  | some c => exact c.utf8Size_pos

theorem ahead_foreign_lt {s : Scanner} (held : s.current.isSome) :
    s.foreign.2.ahead < s.ahead := by
  obtain ⟨count, wide⟩ := Nat.exists_eq_succ_of_ne_zero (Nat.ne_of_gt s.width_pos)
  simp only [foreign, wide, skip]
  exact Nat.lt_of_le_of_lt (ahead_skip_le s.step count) (ahead_step_lt held)

theorem ahead_symbol_lt {s : Scanner} (held : s.current.isSome) (c : Char) :
    (s.symbol c).2.ahead < s.ahead := by
  have once := ahead_step_lt held
  have twice := s.step.ahead_step_le
  unfold symbol
  split
  · split
    · exact Nat.lt_of_le_of_lt twice once
    · exact once
  · exact once

theorem weight_next (s : Scanner) : s.next.1.weight + s.next.2.ahead ≤ s.ahead := by
  have blank : (s.skipClass Alphabet.isBlank).ahead ≤ s.ahead := ahead_skipWhile_le _ s
  have cost (token : Token) (rest : Scanner)
      (less : rest.ahead < (s.skipClass Alphabet.isBlank).ahead) :
      token.weight + rest.ahead ≤ s.ahead := by
    have := token.weight_le_one
    omega
  unfold next
  dsimp only
  split
  · simpa using blank
  · next byte held =>
    split
    · next part => exact cost _ _ (ahead_skipWhile_lt held part)
    · split
      · next digit => exact cost _ _ (ahead_skipWhile_lt held digit)
      · split
        · exact cost _ _ (ahead_symbol_lt (by simp [held]) _)
        · exact cost _ _ (ahead_foreign_lt (by simp [held]))

instance : TokenStream Scanner where
  next := next
  remaining := ahead
  weight_next := weight_next

/-- The tokens that are still to be read, without the end of input. -/
def tokens (s : Scanner) : List Token := TokenStream.drain s

end ScriptReader.Scanner

namespace ScriptReader

/-- Every token of a text, ending in exactly one end of input. -/
def tokenize (text : String) : List Token := (Scanner.ofString text).tokens ++ [.endOfInput]

end ScriptReader
