import Mathlib.Data.List.Induction
import Mathlib.Data.Nat.Digits.Defs
import ScriptReader.Proofs.Lexemes
import ScriptReader.Proofs.Spelling
import ScriptReader.Tree.Text

/-! # Integer literals

What a numeral denotes is said here by its positional value, without the functions that read it. A
numeral is read exactly when it has the form of one and its value fits in 64 bits, and then to that
value: nothing is cut off and nothing wraps around. The value is written back as the digits it was
read from, without the zeros in front that change nothing.
-/

namespace ScriptReader

namespace Numeral

/-- The number that decimal digits stand for, the last of them counting ones. -/
def magnitude (digits : List Char) : Nat :=
  Nat.ofDigits 10 (digits.reverse.map fun c => c.toNat - '0'.toNat)

/-- The digits without superfluous zeros in front: of zeros alone the last one stays. -/
def shortened (digits : List Char) : List Char :=
  match digits.dropWhile (· == '0') with
  | [] => ['0']
  | rest => rest

/-- A text that is at most one sign and then at least one digit, with the number it stands for. -/
inductive Denotes : String → Int → Prop
  | unsigned {digits : List Char} (nonempty : digits ≠ [])
      (parts : ∀ c ∈ digits, c.isDigit = true) :
      Denotes (String.ofList digits) (magnitude digits)
  | positive {digits : List Char} (nonempty : digits ≠ [])
      (parts : ∀ c ∈ digits, c.isDigit = true) :
      Denotes (String.ofList ('+' :: digits)) (magnitude digits)
  | negative {digits : List Char} (nonempty : digits ≠ [])
      (parts : ∀ c ∈ digits, c.isDigit = true) :
      Denotes (String.ofList ('-' :: digits)) (-magnitude digits)

theorem magnitude_concat (digits : List Char) (c : Char) :
    magnitude (digits ++ [c]) = 10 * magnitude digits + (c.toNat - '0'.toNat) := by
  rw [magnitude, magnitude, List.reverse_concat, List.map_cons, Nat.ofDigits_cons, Nat.add_comm]

theorem ofDigitChars_eq_magnitude (digits : List Char) :
    Nat.ofDigitChars 10 digits 0 = magnitude digits := by
  induction digits using List.reverseRecOn with
  | nil => rfl
  | append_singleton digits c ih =>
    rw [Nat.ofDigitChars_append, ih, magnitude_concat, Nat.ofDigitChars_cons,
      Nat.ofDigitChars_nil]

/-! ### Reading -/

theorem natural?_eq_some_iff {digits : List Char} {value : Nat} :
    natural? digits = some value ↔
      digits ≠ [] ∧ (∀ c ∈ digits, c.isDigit = true) ∧ magnitude digits = value := by
  rw [natural?, Option.ite_none_right_eq_some, ofDigitChars_eq_magnitude, List.all_eq_true,
    Option.some.injEq, and_assoc]

/-- The three forms of a numeral, read one by one. -/
theorem integer?_positive (digits : List Char) :
    integer? ('+' :: digits) = (natural? digits).map Int.ofNat := rfl

theorem integer?_negative (digits : List Char) :
    integer? ('-' :: digits) = (natural? digits).map fun magnitude => -Int.ofNat magnitude := by
  rw [integer?]
  cases natural? digits <;> rfl

theorem integer?_unsigned {digits : List Char} (positive : digits.head? ≠ some '+')
    (negative : digits.head? ≠ some '-') : integer? digits = (natural? digits).map Int.ofNat := by
  unfold integer?
  split
  · exact (positive rfl).elim
  · exact (negative rfl).elim
  · rfl

theorem integer?_eq_some_iff {text : String} {value : Int} :
    integer? text.toList = some value ↔ Denotes text value := by
  constructor
  · intro found
    rw [← String.ofList_toList (s := text)]
    generalize text.toList = characters at found
    by_cases positive : characters.head? = some '+'
    · obtain ⟨digits, rfl⟩ := List.head?_eq_some_iff.mp positive
      rw [integer?_positive] at found
      obtain ⟨value, read, rfl⟩ := Option.map_eq_some_iff.mp found
      obtain ⟨nonempty, parts, rfl⟩ := natural?_eq_some_iff.mp read
      exact .positive nonempty parts
    by_cases negative : characters.head? = some '-'
    · obtain ⟨digits, rfl⟩ := List.head?_eq_some_iff.mp negative
      rw [integer?_negative] at found
      obtain ⟨value, read, rfl⟩ := Option.map_eq_some_iff.mp found
      obtain ⟨nonempty, parts, rfl⟩ := natural?_eq_some_iff.mp read
      exact .negative nonempty parts
    rw [integer?_unsigned positive negative] at found
    obtain ⟨value, read, rfl⟩ := Option.map_eq_some_iff.mp found
    obtain ⟨nonempty, parts, rfl⟩ := natural?_eq_some_iff.mp read
    exact .unsigned nonempty parts
  · intro denotes
    cases denotes with
    | unsigned nonempty parts =>
      -- A sign is no digit.
      have unsigned {sign : Char} (other : sign.isDigit = false) : _ ≠ some sign := fun first =>
        Bool.false_ne_true (other.symm.trans (parts sign (List.mem_of_head? first)))
      rw [String.toList_ofList, integer?_unsigned (unsigned rfl) (unsigned rfl),
        natural?_eq_some_iff.mpr ⟨nonempty, parts, rfl⟩]
      rfl
    | positive nonempty parts =>
      rw [String.toList_ofList, integer?_positive,
        natural?_eq_some_iff.mpr ⟨nonempty, parts, rfl⟩]
      rfl
    | negative nonempty parts =>
      rw [String.toList_ofList, integer?_negative,
        natural?_eq_some_iff.mpr ⟨nonempty, parts, rfl⟩]
      rfl

/-- A text stands for at most one number. -/
theorem Denotes.unique {text : String} {value other : Int} (denotes : Denotes text value)
    (denotes' : Denotes text other) : value = other := by
  rw [← integer?_eq_some_iff] at denotes denotes'
  exact Option.some.inj (denotes.symm.trans denotes')

theorem signed?_eq_some_iff {text : String} {value : Int} :
    signed? text = some value ↔ Denotes text value ∧ Fits value := by
  rw [signed?, Option.filter_eq_some_iff, integer?_eq_some_iff, decide_eq_true_eq]

theorem signed?_eq_none_iff {text : String} :
    signed? text = none ↔ ∀ value, Denotes text value → ¬ Fits value := by
  rw [Option.eq_none_iff_forall_ne_some]
  simp only [ne_eq, signed?_eq_some_iff, not_and]

theorem fits_iff {value : Int} : Fits value ↔ -2 ^ 63 ≤ value ∧ value ≤ 2 ^ 63 - 1 := by
  have least : Int64.minValue.toInt = -2 ^ 63 := by decide
  have most : Int64.maxValue.toInt = 2 ^ 63 - 1 := by decide
  rw [Fits, least, most]

/-! ### Writing -/

theorem digitChar_of_isDigit {c : Char} (digit : c.isDigit = true) :
    c.toNat - '0'.toNat < 10 ∧ Nat.digitChar (c.toNat - '0'.toNat) = c := by
  simp only [Char.isDigit, Bool.and_eq_true, decide_eq_true_eq] at digit
  have least : '0'.toNat ≤ c.toNat := UInt32.le_iff_toNat_le.mp digit.1
  have most : c.toNat ≤ '9'.toNat := UInt32.le_iff_toNat_le.mp digit.2
  have ten : '9'.toNat = '0'.toNat + 9 := rfl
  have small : c.toNat - '0'.toNat < 10 := by omega
  refine ⟨small, Char.toNat_inj.mp ?_⟩
  rw [Nat.toNat_digitChar_of_lt_ten small]
  change 48 + (c.toNat - 48) = c.toNat
  change 48 ≤ c.toNat at least
  omega

/-- Behind digits that do not vanish, every further digit is written as it is. -/
theorem toDigits_ofDigitChars {digits : List Char} (parts : ∀ c ∈ digits, c.isDigit = true)
    {before : Nat} (positive : 0 < before) :
    Nat.toDigits 10 (Nat.ofDigitChars 10 digits before) = Nat.toDigits 10 before ++ digits := by
  induction digits generalizing before with
  | nil => rw [Nat.ofDigitChars_nil, List.append_nil]
  | cons c digits ih =>
    obtain ⟨digit, parts⟩ := List.forall_mem_cons.mp parts
    obtain ⟨small, same⟩ := digitChar_of_isDigit digit
    rw [Nat.ofDigitChars_cons, ih parts (by omega),
      ← Nat.toDigits_append_toDigits (by decide) positive small, Nat.toDigits_of_lt_base small,
      same, List.append_assoc, List.singleton_append]

theorem toDigits_magnitude {digits : List Char} (parts : ∀ c ∈ digits, c.isDigit = true) :
    Nat.toDigits 10 (magnitude digits) = shortened digits := by
  rw [← ofDigitChars_eq_magnitude]
  induction digits with
  | nil => rfl
  | cons c digits ih =>
    obtain ⟨digit, others⟩ := List.forall_mem_cons.mp parts
    rw [Nat.ofDigitChars_cons, Nat.mul_zero, Nat.zero_add, shortened, List.dropWhile_cons]
    by_cases zero : c = '0'
    · subst zero
      exact ih others
    · obtain ⟨small, same⟩ := digitChar_of_isDigit digit
      have positive : 0 < c.toNat - '0'.toNat := by
        refine Nat.pos_of_ne_zero fun nothing => zero ?_
        rw [← same, nothing]
        rfl
      rw [toDigits_ofDigitChars others positive, Nat.toDigits_of_lt_base small, same,
        if_neg (by simpa using zero)]
      rfl

theorem text_magnitude {digits : List Char} (parts : ∀ c ∈ digits, c.isDigit = true) :
    text (magnitude digits) = String.ofList (shortened digits) := by
  rw [← toDigits_magnitude parts, ← Nat.repr_eq_ofList_toDigits]
  rfl

end Numeral

open Numeral

/-! ### Literals in a program -/

/-- The token that a scanner makes of a run of digits. -/
def Token.integer (literal : String) : Token := ⟨.integer, literal⟩

theorem Descent.integer_eq_accepted_iff {σ : Type} {p after : Parser σ} {read : Expr} :
    Descent.integer p = .accepted read after ↔
      ∃ value, (Denotes p.current.literal value ∧ Fits value) ∧ read = .integer p.current value ∧
        after = p := by
  simp only [← signed?_eq_some_iff]
  cases found : signed? p.current.literal with
  | none => simp [Descent.integer_rejected found]
  | some value =>
    rw [Descent.integer_accepted found]
    simp [eq_comm]

theorem Descent.integer_eq_rejected {σ : Type} {p : Parser σ}
    (unfit : ∀ value, Denotes p.current.literal value → ¬ Fits value) :
    Descent.integer p = .rejected ⟨.badInteger p.current.literal, p.current⟩ p :=
  Descent.integer_rejected (signed?_eq_none_iff.mpr unfit)

/-- A numeral that fits, and a semicolon. -/
theorem parse_integer {literal : String} {value : Int}
    (fits : signed? literal = some value) :
    parse [Token.integer literal, .semicolon] =
      (⟨[.expression (.integer literal) (.integer (.integer literal) value)]⟩, []) := by
  have given : Expr.Written .closed 1 (.integer (.integer literal) value) [.integer literal] :=
    .integer rfl fits
  have statement := Stmt.Written.expression given (show Token.semicolon.kind = _ from rfl)
  exact (Stmt.WrittenList.cons statement nofun .nil).parse (by decide)

/-- A numeral that does not fit, and a semicolon. -/
theorem parse_badInteger {literal : String} (unfit : signed? literal = none) :
    parse [Token.integer literal, .semicolon] =
      ({}, [⟨.badInteger literal, .integer literal⟩]) := by
  have operand : Expr.RefusedOperand (some Parser.standardLimit) 1 0
      ⟨.badInteger literal, .integer literal⟩ [] :=
    Expr.RefusedOperand.integer (show (Token.integer literal).kind = _ from rfl) unfit
  have refused := Stmt.Refused.expression rfl (.operand (room_of_le (by decide)) operand)
  have run : Run (some Parser.standardLimit) ([] ++ [.integer literal, .semicolon]) []
      [⟨.badInteger literal, .integer literal⟩] :=
    .recovery refused rfl nofun (.ended rfl)
  exact run.result

theorem lexemes_integer {digits : String} (nonempty : digits ≠ "")
    (parts : ∀ c ∈ digits.toList, c.isDigit = true) :
    lexemes (digits ++ ";").toList = [Token.integer digits, .semicolon] := by
  have some : digits.toList ≠ [] := fun empty => nonempty (String.toList_eq_nil_iff.mp empty)
  have semicolon : lexemes [';'] = _ := lexemes_symbol rfl rfl rfl (.inl rfl)
  rw [String.toList_append, lexemes_number some parts (by simp), String.ofList_toList]
  simp [semicolon, Token.integer, Token.semicolon, Kind.ofSymbol?, Char.toString]

/-- Digits with a semicolon behind them are read to the number they stand for when it fits in 64
bits, and are refused as they are otherwise. More generally an integer is read at a token just when
the literal stands for a number that fits. -/
theorem parseText_numeral (digits : String) (nonempty : digits ≠ "")
    (parts : ∀ c ∈ digits.toList, c.isDigit = true) :
    (magnitude digits.toList ≤ 2 ^ 63 - 1 →
      parseText (digits ++ ";") =
        (⟨[.expression (.integer digits)
          (.integer (.integer digits) (magnitude digits.toList))]⟩, []) ∧
      (Expr.integer (.integer digits) (magnitude digits.toList)).text =
        String.ofList (shortened digits.toList)) ∧
    (2 ^ 63 - 1 < magnitude digits.toList →
      parseText (digits ++ ";") = ({}, [⟨.badInteger digits, .integer digits⟩])) ∧
    ∀ {σ : Type} (p : Parser σ),
      (∀ read after, Descent.integer p = .accepted read after ↔
        ∃ value, (Denotes p.current.literal value ∧ -2 ^ 63 ≤ value ∧ value ≤ 2 ^ 63 - 1) ∧
          read = .integer p.current value ∧ after = p) ∧
      ((∀ value, Denotes p.current.literal value → ¬ (-2 ^ 63 ≤ value ∧ value ≤ 2 ^ 63 - 1)) →
        Descent.integer p = .rejected ⟨.badInteger p.current.literal, p.current⟩ p) := by
  have denotes : Denotes digits (magnitude digits.toList) := by
    have some : digits.toList ≠ [] := fun empty => nonempty (String.toList_eq_nil_iff.mp empty)
    have read := Denotes.unsigned some parts
    rwa [String.ofList_toList] at read
  rw [parseText_eq_lexemes, lexemes_integer nonempty parts]
  refine ⟨fun small => ?_, fun large => ?_, fun p => ?_⟩
  · have fits : Fits (magnitude digits.toList) := fits_iff.mpr (by omega)
    exact ⟨parse_integer (signed?_eq_some_iff.mpr ⟨denotes, fits⟩), text_magnitude parts⟩
  · refine parse_badInteger (signed?_eq_none_iff.mpr fun value other fits => ?_)
    rw [← denotes.unique other] at fits
    have most := (fits_iff.mp fits).2
    omega
  · simp only [← fits_iff]
    exact ⟨fun read after => Descent.integer_eq_accepted_iff, Descent.integer_eq_rejected⟩

/-- The largest number that fits and the one behind it, with zeros in front, and the least number at
a token made by hand. -/
theorem parseText_numeral_borders :
    parseText "009223372036854775807;" =
      (⟨[.expression (.integer "009223372036854775807")
        (.integer (.integer "009223372036854775807") 9223372036854775807)]⟩, []) ∧
    (Expr.integer (.integer "009223372036854775807") 9223372036854775807).text =
      "9223372036854775807" ∧
    parseText "009223372036854775808;" =
      ({}, [⟨.badInteger "009223372036854775808", .integer "009223372036854775808"⟩]) ∧
    Descent.integer (Parser.ofStream [Token.integer "-9223372036854775808"]) =
      .accepted (.integer (.integer "-9223372036854775808") (-2 ^ 63))
        (Parser.ofStream [Token.integer "-9223372036854775808"]) := by
  have largest : magnitude "009223372036854775807".toList = 9223372036854775807 := by decide +kernel
  have beyond : magnitude "009223372036854775808".toList = 9223372036854775808 := by decide +kernel
  have fits := (parseText_numeral "009223372036854775807" (by decide)
    (List.all_eq_true.mp (by decide))).1 (by rw [largest]; decide)
  have unfit := (parseText_numeral "009223372036854775808" (by decide)
    (List.all_eq_true.mp (by decide))).2.1 (by rw [beyond]; decide)
  rw [largest] at fits
  refine ⟨fits.1, fits.2.trans (by decide +kernel), unfit, ?_⟩
  have least := (parseText_numeral "0" (by decide) (List.all_eq_true.mp (by decide))).2.2
    (Parser.ofStream [Token.integer "-9223372036854775808"])
  refine (least.1 _ _).mpr ⟨-2 ^ 63, ⟨?_, by decide, by decide⟩, rfl, rfl⟩
  exact @Denotes.negative "9223372036854775808".toList (by decide) (List.all_eq_true.mp (by decide))

end ScriptReader
