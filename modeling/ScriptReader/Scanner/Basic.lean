import ScriptReader.Token.Alphabet
import ScriptReader.Token.Basic

/-! # The scanner

A cursor over the UTF-8 bytes of a source. `position` is the index of the byte under the cursor,
`readPosition` the index of the byte after it, and `current` the byte itself, absent at the end.
Scanning looks at one byte and at most one more; only a character beyond ASCII is decoded whole.
-/

namespace ScriptReader

structure Scanner where
  source : ByteArray
  position : Nat
  readPosition : Nat
  current : Option UInt8

namespace Scanner

/-- A scanner without input. -/
def empty : Scanner := ⟨.empty, 0, 0, none⟩

/-- Moves the cursor to the next byte. -/
def step (s : Scanner) : Scanner :=
  { s with
    position := s.readPosition
    readPosition := if s.readPosition < s.source.size then s.readPosition + 1 else s.readPosition
    current := s.source[s.readPosition]? }

/-- A scanner at the first byte of a text. -/
def ofString (text : String) : Scanner := step ⟨text.toUTF8, 0, 0, none⟩

/-- Drops the input; only the end of input is left to read. -/
def reset (_ : Scanner) : Scanner := empty

/-- Replaces the input by a new text. -/
def load (s : Scanner) (text : String) : Scanner := step { s.reset with source := text.toUTF8 }

/-- Whether the last byte has been passed. Blank bytes that are still to be skipped count as input. -/
def exhausted (s : Scanner) : Bool := s.current.isNone

/-- How many bytes are still to be passed, the one under the cursor included. -/
def ahead (s : Scanner) : Nat :=
  (s.source.size - s.readPosition) + if s.current.isSome then 1 else 0

theorem ahead_step_le (s : Scanner) : s.step.ahead ≤ s.ahead := by
  by_cases inside : s.readPosition < s.source.size
  · simp only [ahead, step, inside, if_true]
    split <;> split <;> omega
  · simp [ahead, step, inside]

theorem ahead_step_lt {s : Scanner} (held : s.current.isSome) : s.step.ahead < s.ahead := by
  by_cases inside : s.readPosition < s.source.size
  · simp only [ahead, step, inside, held, if_true]
    split <;> omega
  · simp [ahead, step, inside, held]

/-- Passes the bytes that a class accepts, up to the first one that it refuses. -/
def skipWhile (accept : UInt8 → Bool) (s : Scanner) : Scanner :=
  match _held : s.current with
  | some byte => if accept byte then skipWhile accept s.step else s
  | none => s
termination_by s.ahead
decreasing_by exact ahead_step_lt (by simp [_held])

/-- Passes the bytes that belong to a class of ASCII characters. -/
def skipClass (accept : Char → Bool) (s : Scanner) : Scanner :=
  s.skipWhile fun byte => accept (Char.ofUInt8 byte)

/-- Passes a number of bytes. -/
def skip (s : Scanner) : Nat → Scanner
  | 0 => s
  | count + 1 => s.step.skip count

/-- The text from one byte index up to another, where both lie on the borders of characters. -/
def slice? (s : Scanner) (start stop : Nat) : Option String :=
  String.fromUTF8? (s.source.extract start stop)

/-- The text between two cursors over the same source. -/
def between (start stop : Scanner) : String :=
  (start.slice? start.position stop.position).getD ""

/-- The word under the cursor: reserved, or else an identifier. -/
def word (s : Scanner) : Token × Scanner :=
  let rest := s.skipClass Alphabet.isWordPart
  let literal := s.between rest
  (⟨.ofWord literal, literal⟩, rest)

/-- The number under the cursor. -/
def number (s : Scanner) : Token × Scanner :=
  let rest := s.skipClass Char.isDigit
  (⟨.integer, s.between rest⟩, rest)

/-- The byte after the one under the cursor. -/
def lookahead (s : Scanner) : Option UInt8 := s.source[s.readPosition]?

/-- The operator or punctuation under the cursor, with the `=` behind it if the two are one
operator. Any other ASCII character is illegal. -/
def symbol (s : Scanner) (c : Char) : Token × Scanner :=
  let single := (⟨(Kind.ofSymbol? c).getD .illegal, c.toString⟩, s.step)
  match Kind.withEquals? c with
  | some pair =>
    if s.lookahead = some '='.toUInt8 then (⟨pair, c.toString ++ "="⟩, s.step.step) else single
  | none => single

/-- The number of bytes of the character under the cursor. -/
def width (s : Scanner) : Nat := ((s.source.utf8DecodeChar? s.position).map Char.utf8Size).getD 1

/-- The character beyond ASCII under the cursor. -/
def foreign (s : Scanner) : Token × Scanner :=
  let rest := s.skip s.width
  (⟨.illegal, s.between rest⟩, rest)

/-- Reads the next token. At the end of input it stays there. -/
def next (s : Scanner) : Token × Scanner :=
  let s := s.skipClass Alphabet.isBlank
  match s.current with
  | none => (.endOfInput, s)
  | some byte =>
    let c := Char.ofUInt8 byte
    if Alphabet.isWordPart c then s.word
    else if c.isDigit then s.number
    else if c.toNat < 0x80 then s.symbol c
    else s.foreign

end Scanner

end ScriptReader
