import ScriptReader.Proofs.Streams
import ScriptReader.Scanner.Pool

/-! # Where tokens come from

A text can be read straight from its scanner, from the list of its tokens with the end of input at
the end, or from a scanner that has read other texts before. All three yield the same tokens for
ever, and the parser cannot tell them apart: not while it reads statements, nor in recovery, nor when
it asks for tokens behind the end.
-/

namespace ScriptReader

open TokenStream

/-- A list answers with the end of input behind its last token in any case. -/
theorem alike_concat_endOfInput (tokens : List Token) :
    Alike (tokens ++ [Token.endOfInput]) tokens := by
  intro count
  induction count generalizing tokens with
  | zero => rfl
  | succ count ih =>
    cases tokens with
    | nil => rfl
    | cons token rest => exact congrArg (token :: ·) (ih rest)

/-- The tokens of a text, with the end of input among them, are parsed like the text. -/
theorem parse_tokenize (text : String) : parse (tokenize text) = parseText text := by
  rw [parseText_eq]
  exact parse_eq_of_alike (alike_concat_endOfInput _) (plain_drain _)

/-- A parser over the scanner of a text reads it to the end. -/
theorem exists_program?_ofString (text : String) :
    ∃ last, (Parser.ofStream (Scanner.ofString text)).program? = some ((parseText text).1, last) ∧
      last.diagnostics = (parseText text).2 := by
  rw [parseText_eq]
  exact exists_program?_of_alike (Scanner.alike_tokens _) (plain_drain _)

/-- A text is read to the same program, with the same diagnostics, from its scanner, from the list of
its tokens, from a scanner of whatever pool, and by a parser that is run to the end of the text. -/
theorem parse_sources (text : String) (pool : Pool) :
    parse (tokenize text) = parse (Scanner.ofString text) ∧
    parse (pool.acquire text).1 = parse (Scanner.ofString text) ∧
    ∃ last, (Parser.ofStream (Scanner.ofString text)).program? =
        some ((parse (Scanner.ofString text)).1, last) ∧
      last.diagnostics = (parse (Scanner.ofString text)).2 :=
  ⟨parse_tokenize text, by rw [Pool.acquire_fst], exists_program?_ofString text⟩

end ScriptReader
