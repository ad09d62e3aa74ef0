/-! # Decimal numerals

A numeral is one optional sign and at least one ASCII digit, with any number of leading zeros. It
is read exactly and then has to fit in 64 bits: a value outside the range is refused and never
wraps around. A value is written back with its sign only when it is negative, and without leading
zeros.
-/

namespace ScriptReader.Numeral

/-- The value of a non-empty run of decimal digits. -/
def natural? (digits : List Char) : Option Nat :=
  if digits ≠ [] ∧ digits.all Char.isDigit then some (Nat.ofDigitChars 10 digits 0) else none

/-- The value of a numeral, whatever its size. -/
def integer? : List Char → Option Int
  | '+' :: digits => (natural? digits).map Int.ofNat
  | '-' :: digits => (natural? digits).map fun magnitude => -(magnitude : Int)
  | digits => (natural? digits).map Int.ofNat

/-- Whether a number fits in 64 bits in two's complement. -/
def Fits (value : Int) : Prop := Int64.minValue.toInt ≤ value ∧ value ≤ Int64.maxValue.toInt

instance (value : Int) : Decidable (Fits value) := inferInstanceAs (Decidable (_ ∧ _))

/-- The value of a numeral whose value fits. -/
def signed? (text : String) : Option Int := (integer? text.toList).filter fun value => Fits value

/-- The shortest numeral of a value. -/
def text : Int → String
  | .ofNat magnitude => magnitude.repr
  | .negSucc magnitude => "-" ++ (magnitude + 1).repr

end ScriptReader.Numeral
