import Mathlib.Data.Nat.Digits.Defs
import ScriptReader.Proofs.Codes
import ScriptReader.Proofs.Lexemes

/-! # Quoted text ends by itself

A character is quoted in one of three ways: by a backslash and a letter, by its code point between
braces, or as itself. The first characters tell which way it is and how far it goes, so it is clear
where the next character begins and where the closing quote stands, whatever the text holds. No
control character is left in what is written.
-/

namespace ScriptReader

/-- The characters of the general category Cc, line breaks among them. -/
def Control (c : Char) : Prop := c.toNat ≤ 0x1F ∨ 0x7F ≤ c.toNat ∧ c.toNat ≤ 0x9F

instance : DecidablePred Control := fun _ => inferInstanceAs (Decidable (_ ∨ _ ∧ _))

theorem unprintable_of_control {c : Char} (control : Control c) : unprintable c = true := by
  unfold unprintable
  rw [List.any_eq_true]
  rcases control with low | ⟨least, most⟩
  · exact ⟨(0x0, 0x1F), .head _, by simpa using low⟩
  · exact ⟨(0x7F, 0xA0), .tail _ (.head _), by simp; omega⟩

theorem not_control_of_isAlpha {c : Char} (letter : c.isAlpha = true) : ¬ Control c := by
  have range : 65 ≤ c.toNat ∧ c.toNat ≤ 90 ∨ 97 ≤ c.toNat ∧ c.toNat ≤ 122 := by
    rcases (Bool.or_eq_true _ _).mp letter with upper | lower
    · exact .inl (of_decide_eq_true upper)
    · obtain ⟨least, most⟩ := (Bool.and_eq_true _ _).mp lower
      exact .inr ⟨of_decide_eq_true least, of_decide_eq_true most⟩
  unfold Control
  omega

/-- Two runs of a class with other characters behind them are the same if the whole is. -/
theorem run_eq_of_append_eq {accept : Char → Bool} {run run' rest rest' : List Char}
    (parts : ∀ c ∈ run, accept c = true) (parts' : ∀ c ∈ run', accept c = true)
    (ends : ∀ next ∈ rest.head?, accept next = false)
    (ends' : ∀ next ∈ rest'.head?, accept next = false)
    (same : run ++ rest = run' ++ rest') : run = run' ∧ rest = rest' := by
  obtain ⟨taken, left⟩ := takeWhile_dropWhile_append parts ends
  obtain ⟨taken', left'⟩ := takeWhile_dropWhile_append parts' ends'
  rw [same] at taken left
  constructor
  · exact taken.symm.trans taken'
  · exact left.symm.trans left'

namespace Quoted

/-! ### Code points -/

theorem exists_digitChar {number : Nat} {c : Char} (among : c ∈ Nat.toDigits 16 number) :
    ∃ digit < 16, c = digit.digitChar := by
  induction number using Nat.strong_induction_on with
  | _ number ih =>
    rw [Nat.toDigits_eq_if (by decide)] at among
    split at among
    · next small => exact ⟨number, small, List.mem_singleton.mp among⟩
    · next large =>
      rcases List.mem_append.mp among with before | last
      · exact ih (number / 16) (by omega) before
      · exact ⟨number % 16, by omega, List.mem_singleton.mp last⟩

theorem digitChar_inj {digit digit' : Nat} (small : digit < 16) (small' : digit' < 16)
    (same : digit.digitChar = digit'.digitChar) : digit = digit' := by
  have each : ∀ digit < 16, ∀ digit' < 16, digit.digitChar = digit'.digitChar → digit = digit' := by
    decide
  exact each digit small digit' small' same

/-- The last digit, behind the digits of what is left without it. -/
theorem toDigits_eq_concat (number : Nat) : Nat.toDigits 16 number =
    (if number < 16 then [] else Nat.toDigits 16 (number / 16)) ++ [(number % 16).digitChar] := by
  rw [Nat.toDigits_eq_if (by decide)]
  split
  · next small => rw [Nat.mod_eq_of_lt small, List.nil_append]
  · rfl

theorem toDigits_injective : Function.Injective (Nat.toDigits 16) := by
  intro number number' same
  induction number using Nat.strong_induction_on generalizing number' with
  | _ number ih =>
    rw [toDigits_eq_concat, toDigits_eq_concat number'] at same
    obtain ⟨before, last⟩ := List.append_inj' same rfl
    have low : number % 16 = number' % 16 :=
      digitChar_inj (by omega) (by omega) (List.singleton_inj.mp last)
    split at before <;> split at before
    · omega
    · exact (Nat.toDigits_ne_nil before.symm).elim
    · exact (Nat.toDigits_ne_nil before).elim
    · have high := ih (number / 16) (by omega) before
      omega

/-- The code point ends with its closing brace. -/
theorem codePoint_delimits {c other : Char} {rest rest' : List Char}
    (same : codePoint c ++ rest = codePoint other ++ rest') : c = other ∧ rest = rest' := by
  have inside (c : Char) : ∀ digit ∈ Nat.toDigits 16 c.toNat, (digit != '\x7d') = true := by
    intro digit among
    obtain ⟨value, -, rfl⟩ := exists_digitChar among
    simp
  have split (c : Char) (rest : List Char) : codePoint c ++ rest =
      ['\\', 'u', '\x7b'] ++ (Nat.toDigits 16 c.toNat ++ '\x7d' :: rest) := by
    simp [codePoint]
  rw [split, split] at same
  obtain ⟨digits, behind⟩ := run_eq_of_append_eq (inside c) (inside other) (by simp) (by simp)
    (List.append_cancel_left same)
  constructor
  · exact Char.toNat_inj.mp (toDigits_injective digits)
  · exact List.tail_eq_of_cons_eq behind

/-! ### Characters -/

/-- The characters that have a short escape, each with the letter behind its backslash. -/
def letters : List (Char × Char) :=
  [('"', '"'), ('\\', '\\'), ('\x00', '0'), ('\t', 't'), ('\n', 'n'), ('\r', 'r')]

/-- The three ways in which a character is quoted. -/
inductive Escaped (c : Char) : List Char → Prop
  | letter {letter : Char} (short : (c, letter) ∈ letters) : Escaped c ['\\', letter]
  | codePoint : Escaped c (codePoint c)
  | plain (shown : unprintable c = false) (other : c ≠ '\\') (other' : c ≠ '"') : Escaped c [c]

theorem escaped_escape (c : Char) : Escaped c (escape c) := by
  unfold escape
  split_ifs with quote backslash null tab feed carriage hidden
  · subst quote
    exact .letter (by decide)
  · subst backslash
    exact .letter (by decide)
  · subst null
    exact .letter (by decide)
  · subst tab
    exact .letter (by decide)
  · subst feed
    exact .letter (by decide)
  · subst carriage
    exact .letter (by decide)
  · exact .codePoint
  · exact .plain (by simpa using hidden) backslash quote

/-- A letter is behind the backslash of one character only, and is not the one of code points. -/
theorem letters_inj : ∀ entry ∈ letters, entry.2 ≠ 'u' ∧
    ∀ other ∈ letters, entry.2 = other.2 → entry.1 = other.1 := by
  decide

theorem Escaped.delimits {c other : Char} {written written' rest rest' : List Char}
    (escaped : Escaped c written) (escaped' : Escaped other written')
    (same : written ++ rest = written' ++ rest') : c = other ∧ rest = rest' := by
  cases escaped with
  | letter short =>
    obtain ⟨distinct, unique⟩ := letters_inj _ short
    cases escaped' with
    | letter short' =>
      obtain ⟨-, same⟩ := List.cons.inj same
      obtain ⟨letter, behind⟩ := List.cons.inj same
      exact ⟨unique _ short' letter, behind⟩
    | codePoint =>
      obtain ⟨-, same⟩ := List.cons.inj same
      exact (distinct (List.head_eq_of_cons_eq same)).elim
    | plain _ other => exact (other (List.head_eq_of_cons_eq same).symm).elim
  | codePoint =>
    cases escaped' with
    | letter short =>
      obtain ⟨distinct, -⟩ := letters_inj _ short
      obtain ⟨-, same⟩ := List.cons.inj same
      exact (distinct (List.head_eq_of_cons_eq same).symm).elim
    | codePoint => exact codePoint_delimits same
    | plain _ other => exact (other (List.head_eq_of_cons_eq same).symm).elim
  | plain _ different =>
    cases escaped' with
    | letter => exact (different (List.head_eq_of_cons_eq same)).elim
    | codePoint => exact (different (List.head_eq_of_cons_eq same)).elim
    | plain => exact List.cons.inj same

/-- No character is quoted by what begins with the closing quote. -/
theorem Escaped.head?_ne {c : Char} {written rest : List Char} (escaped : Escaped c written) :
    (written ++ rest).head? ≠ some '"' := by
  cases escaped with
  | letter => exact nofun
  | codePoint => exact nofun
  | plain _ _ other => exact fun same => other (Option.some.inj same)

theorem Escaped.not_control {c : Char} {written : List Char} (escaped : Escaped c written) :
    ∀ character ∈ written, ¬ Control character := by
  cases escaped with
  | letter short =>
    have visible : ∀ entry ∈ letters, ¬ Control entry.2 := by decide
    rw [List.forall_mem_cons, List.forall_mem_singleton]
    exact ⟨by decide, visible _ short⟩
  | codePoint =>
    intro character among
    rcases List.mem_append.mp among with among | last
    · rcases List.mem_append.mp among with opening | digit
      · have visible : ∀ character ∈ ['\\', 'u', '\x7b'], ¬ Control character := by
          rw [List.forall_mem_cons, List.forall_mem_cons, List.forall_mem_singleton]
          decide
        exact visible character opening
      · obtain ⟨value, small, rfl⟩ := exists_digitChar digit
        have visible : ∀ value < 16, ¬ Control value.digitChar := by decide
        exact visible value small
    · rw [List.mem_singleton.mp last]
      decide
  | plain shown =>
    rw [List.forall_mem_singleton]
    intro control
    rw [unprintable_of_control control] at shown
    cases shown

/-! ### Texts -/

def code : Code Char Char where
  fits _ := True
  text := escape
  kept := id
  ends _ := True

/-- Characters up to the closing quote. -/
def textCode : Code (List Char) (List Char) := code.led [] ['"'] fun _ => True

theorem delimits (c : Char) : code.Delimits c :=
  fun other _ _ _ _ _ same => (escaped_escape c).delimits (escaped_escape other) same

theorem parts : code.Parts [] ['"'] fun _ => True where
  leads _ _ := trivial
  closes _ := trivial
  apart _ _ _ same := (escaped_escape _).head?_ne (congrArg List.head? same)

theorem toList_quote (text : String) :
    (quote text).toList = '"' :: textCode.text text.toList := by
  simp [quote, textCode, code, Code.led]

end Quoted

/-- A quoted text ends with its closing quote. -/
theorem quote_delimits {text other : String} {rest rest' : List Char}
    (same : (quote text).toList ++ rest = (quote other).toList ++ rest') :
    text = other ∧ rest = rest' := by
  rw [Quoted.toList_quote, Quoted.toList_quote] at same
  have delimits : Quoted.textCode.Delimits text.toList :=
    Quoted.parts.delimits_led (fun _ _ => trivial) fun c _ => Quoted.delimits c
  obtain ⟨kept, behind⟩ :=
    delimits (fun _ _ => trivial) trivial trivial (List.tail_eq_of_cons_eq same)
  have kept : text.toList.map id = other.toList.map id := kept
  rw [List.map_id, List.map_id] at kept
  exact ⟨String.toList_injective kept, behind⟩

theorem quote_injective : Function.Injective quote := by
  intro text other same
  have same := congrArg (fun text => text.toList ++ []) same
  exact (quote_delimits same).1

theorem not_control_quote (text : String) : ∀ c ∈ (quote text).toList, ¬ Control c := by
  rw [Quoted.toList_quote, List.forall_mem_cons]
  constructor
  · decide
  · intro c among
    rcases List.mem_append.mp among with inside | closing
    · obtain ⟨character, -, written⟩ := List.mem_flatMap.mp inside
      exact (Quoted.escaped_escape character).not_control c written
    · rw [List.mem_singleton.mp closing]
      decide

end ScriptReader
