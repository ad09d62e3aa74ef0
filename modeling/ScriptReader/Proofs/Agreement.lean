import ScriptReader.Parser.Moves
import ScriptReader.Proofs.Congruence
import ScriptReader.Proofs.Window

/-! # Parses that agree on some parsers

Two parses may differ and still do the same on every parser of some sort. Where moving keeps the
sort, this carries over from the parts of a rule to the whole, since each part runs on a parser that
was reached from the first one. So what a rule would do in a case that never arises on these parsers
can be replaced by anything.
-/

namespace ScriptReader

variable {σ α β : Type} [TokenStream σ] {sort : Parser σ → Prop}

/-- On every parser of the sort, both parses do the same. -/
def Parse.AgreesOn (sort : Parser σ → Prop) (parse other : Parse σ α) : Prop :=
  parse.Moving ∧ ∀ p, sort p → other p = parse p

namespace Parse.AgreesOn

theorem refl {parse : Parse σ α} (moving : parse.Moving) : parse.AgreesOn sort parse :=
  ⟨moving, fun _ _ => rfl⟩

variable (kept : ∀ {p q : Parser σ}, Moves p q → sort p → sort q)

include kept

theorem bind {first first' : Parse σ α} {next next' : α → Parse σ β}
    (head : first.AgreesOn sort first')
    (tail : ∀ value, (next value).AgreesOn sort (next' value)) :
    (first >>= next).AgreesOn sort (first' >>= next') := by
  refine ⟨head.1.bind fun value => (tail value).1, fun p held => ?_⟩
  have same := head.2 p held
  have moved := head.1 p
  cases ran : first p with
  | accepted value after =>
    rw [ran] at same moved
    rw [bind_accepted ran, bind_accepted same]
    exact (tail value).2 after (kept moved held)
  | rejected diagnostic after =>
    rw [ran] at same
    rw [bind_rejected ran, bind_rejected same]
  | unfinished =>
    change Parse.bind first' next' p = Parse.bind first next p
    simp only [Parse.bind, same, ran]

theorem nested {body body' : Parse σ α} (inner : body.AgreesOn sort body') :
    (Parse.nested body).AgreesOn sort (Parse.nested body') := by
  refine bind kept (refl .enterNesting) fun _ => ⟨inner.1.mapAfter_exitNesting, fun p held => ?_⟩
  exact congrArg (Outcome.mapAfter Parser.exitNesting) (inner.2 p held)

theorem congruence : Parse.Congruence (σ := σ) (τ := σ) (Parse.AgreesOn sort) where
  pure value := refl (.pure value)
  bind := bind kept
  nested := nested kept
  reject diagnostic := refl (.reject diagnostic)
  current := refl .current
  peek := refl .peek
  rules := refl .rules
  advance := refl .advance
  within inner tail := bind kept (refl .enterBlock) fun _ => bind kept inner fun value =>
    bind kept (refl .exitBlock) fun _ => tail value

end Parse.AgreesOn

end ScriptReader
