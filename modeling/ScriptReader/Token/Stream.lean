import ScriptReader.Token.Basic

/-! # Token streams

A stream yields one token at a time and answers with the end-of-input token for ever once it is
drained. What it still holds is bounded by a number that no read increases and that every token
other than the end of input decreases, so reading to the end terminates.
-/

namespace ScriptReader

class TokenStream (σ : Type) where
  next : σ → Token × σ
  /-- An upper bound for the number of tokens still to come. -/
  remaining : σ → Nat
  weight_next (stream : σ) : (next stream).1.weight + remaining (next stream).2 ≤ remaining stream

namespace TokenStream

/-- A list of tokens is a stream that yields them in order. -/
instance : TokenStream (List Token) where
  next
    | [] => (.endOfInput, [])
    | token :: rest => (token, rest)
  remaining := List.length
  weight_next
    | [] => Nat.le_refl 0
    | token :: rest => by
      simp only [List.length_cons]
      have := token.weight_le_one
      omega

variable {σ : Type} [TokenStream σ]

/-- The first `count` tokens that a stream yields, ends of input included. -/
def take : Nat → σ → List Token
  | 0, _ => []
  | count + 1, stream => (next stream).1 :: take count (next stream).2

/-- Every token up to the first end of input, which is not among them. -/
def drain (stream : σ) : List Token :=
  if (next stream).1.kind = .endOfInput then []
  else (next stream).1 :: drain (next stream).2
termination_by remaining stream
decreasing_by
  have := weight_next stream
  have := Token.weight_eq_one ‹_›
  omega

end TokenStream

end ScriptReader
