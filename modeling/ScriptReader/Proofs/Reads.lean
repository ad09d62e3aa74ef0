import ScriptReader.Proofs.Refusal

/-! # What an outcome reads

An outcome on a list of tokens reads a first part of the list: all of what it accepts, or all that
stands before the token it blames. The parser it leaves faces the rest, with the last token read
still under examination where the rule looks one token ahead. Nothing but that and the number of
open blocks has changed. The predicate below states this for any two conditions on the part read,
one for acceptance and one for refusal, and composes along the binding of parses.
-/

namespace ScriptReader

variable {α β : Type}

/-- The outcome of a rule for a parser that has read `read` and faces `ahead`. An accepted value has
to fit the tokens it takes and the token behind them; a refusal has to fit the number of blocks it
leaves open, its diagnostic and the tokens before the one it blames. -/
def Outcome.Reads (p : Parser (List Token)) (read ahead : List Token)
    (good : α → List Token → Token → Prop) (bad : Nat → Diagnostic → List Token → Prop) :
    Outcome (List Token) α → Prop
  | .accepted value after => ∃ taken rest, ahead = taken ++ rest ∧ good value taken (front rest) ∧
      after = p.facing (window (read ++ taken) rest)
  | .rejected diagnostic after => ∃ count taken rest, ahead = taken ++ rest ∧
      diagnostic.token = front rest ∧ bad count diagnostic taken ∧
      after = (p.opened count).facing (blamed diagnostic (read ++ taken) rest)
  | .unfinished => False

namespace Outcome.Reads

variable {p : Parser (List Token)} {read ahead taken rest : List Token}
  {good : α → List Token → Token → Prop} {good' : β → List Token → Token → Prop}
  {bad bad' : Nat → Diagnostic → List Token → Prop}

/-- What a later part of a rule reads extends what the earlier part has read. -/
theorem shift {outcome : Outcome (List Token) α} (split : ahead = taken ++ rest)
    (reads : outcome.Reads p (read ++ taken) rest (fun value more => good value (taken ++ more))
      fun count diagnostic more => bad count diagnostic (taken ++ more)) :
    outcome.Reads p read ahead good bad := by
  subst split
  cases outcome with
  | accepted value after =>
    obtain ⟨more, behind, rfl, fits, rfl⟩ := reads
    exact ⟨taken ++ more, behind, (List.append_assoc ..).symm, fits, by rw [List.append_assoc]⟩
  | rejected diagnostic after =>
    obtain ⟨count, more, behind, rfl, blame, fits, rfl⟩ := reads
    exact ⟨count, taken ++ more, behind, (List.append_assoc ..).symm, blame, fits,
      by rw [List.append_assoc]⟩
  | unfinished => exact reads

theorem pure {value : α} (fits : good value [] (front ahead)) :
    ((Pure.pure value : Parse (List Token) α) (p.facing (window read ahead))).Reads p read ahead
      good bad :=
  ⟨[], ahead, rfl, fits, by rw [List.append_nil]⟩

theorem bind {first : Parse (List Token) α} {next : α → Parse (List Token) β}
    {start : Parser (List Token)} (head : (first start).Reads p read ahead good bad)
    (refused : ∀ count diagnostic taken rest, ahead = taken ++ rest →
      diagnostic.token = front rest →
      bad count diagnostic taken → bad' count diagnostic taken)
    (tail : ∀ value taken rest, ahead = taken ++ rest → good value taken (front rest) →
      (next value (p.facing (window (read ++ taken) rest))).Reads p (read ++ taken) rest
        (fun result more => good' result (taken ++ more))
        fun count diagnostic more => bad' count diagnostic (taken ++ more)) :
    ((first >>= next) start).Reads p read ahead good' bad' := by
  cases ran : first start with
  | accepted value after =>
    rw [ran] at head
    obtain ⟨taken, rest, split, fits, rfl⟩ := head
    rw [Parse.bind_accepted ran]
    exact shift split (tail value taken rest split fits)
  | rejected diagnostic after =>
    rw [ran] at head
    obtain ⟨count, taken, rest, split, blame, fits, rfl⟩ := head
    rw [Parse.bind_rejected ran]
    exact ⟨count, taken, rest, split, blame, refused count diagnostic taken rest split blame fits,
      rfl⟩
  | unfinished => rw [ran] at head; exact head.elim

/-- The checked advance takes one token of the kind it wants, or blames the token that stands in its
place. -/
theorem expect {expected : Kind} (nonempty : read ≠ []) (present : expected ≠ .endOfInput)
    (inner : expected ≠ .closeCurly) :
    (Parse.expect expected (p.facing (window read ahead))).Reads p read ahead
      (fun token taken _ => token.kind = expected ∧ taken = [token])
      fun count diagnostic taken => count = 0 ∧ taken = [] ∧
        ∃ token, token.kind ≠ expected ∧ diagnostic = .unexpected expected token := by
  by_cases found : (front ahead).kind = expected
  · obtain ⟨token, rest, rfl, kind⟩ := exists_cons_of_front found present
    rw [Parse.expect_accepted nonempty kind]
    exact ⟨[token], rest, rfl, ⟨kind, rfl⟩, by rw [window_append_cons]; rfl⟩
  · rw [Parse.expect_rejected nonempty found]
    refine ⟨0, [], ahead, rfl, rfl, ⟨rfl, rfl, _, found, rfl⟩, ?_⟩
    rw [blamed_unexpected inner, List.append_nil, Parser.opened_zero]

end Outcome.Reads

end ScriptReader
