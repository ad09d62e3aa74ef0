import ScriptReader.Proofs.Streams

/-! # Scanning characters

The scanner moves over the bytes of a text and takes its tokens as slices. Read character by
character it skips blanks and takes the longest word, the longest number, a symbol with the `=`
that belongs to it, or one character. The bytes in between never come apart: at the beginning of a
token the scanner stands on the border of two characters, and its slices are texts.
-/

namespace ScriptReader

open TokenStream

/-- The token of a character that is no part of a word or number, with the characters behind it: a
symbol, alone or together with a `=` right behind it, or else an illegal character. -/
def symbolAt (c : Char) (rest : List Char) : Token × List Char :=
  let single := (⟨(Kind.ofSymbol? c).getD .illegal, c.toString⟩, rest)
  match Kind.withEquals? c with
  | some pair => if rest.head? = some '=' then (⟨pair, c.toString ++ "="⟩, rest.tail) else single
  | none => single

/-- The next token of some characters, with the characters behind it. -/
def lexeme (characters : List Char) : Token × List Char :=
  match characters.dropWhile Alphabet.isBlank with
  | [] => (.endOfInput, [])
  | c :: rest =>
    if Alphabet.isWordPart c then
      let word := String.ofList ((c :: rest).takeWhile Alphabet.isWordPart)
      (⟨.ofWord word, word⟩, rest.dropWhile Alphabet.isWordPart)
    else if c.isDigit then
      (⟨.integer, String.ofList ((c :: rest).takeWhile Char.isDigit)⟩, rest.dropWhile Char.isDigit)
    else symbolAt c rest

theorem length_dropWhile_le {α : Type} (accept : α → Bool) (items : List α) :
    (items.dropWhile accept).length ≤ items.length :=
  (List.dropWhile_sublist accept).length_le

theorem length_symbolAt_le (c : Char) (rest : List Char) :
    (symbolAt c rest).2.length ≤ rest.length := by
  unfold symbolAt
  split
  · split
    · simp
    · exact Nat.le_refl _
  · exact Nat.le_refl _

theorem weight_lexeme (characters : List Char) :
    (lexeme characters).1.weight + (lexeme characters).2.length ≤ characters.length := by
  have blanks := length_dropWhile_le Alphabet.isBlank characters
  unfold lexeme
  split
  · simp
  · next c rest found =>
    rw [found, List.length_cons] at blanks
    have cost (token : Token) (left : List Char) (shorter : left.length ≤ rest.length) :
        token.weight + left.length ≤ characters.length := by
      have := token.weight_le_one
      omega
    split
    · exact cost _ _ (length_dropWhile_le ..)
    · split
      · exact cost _ _ (length_dropWhile_le ..)
      · exact cost _ _ (length_symbolAt_le c rest)

/-- Characters are a stream of the tokens that they spell. -/
instance : TokenStream (List Char) where
  next := lexeme
  remaining := List.length
  weight_next := weight_lexeme

/-- The tokens that the characters spell. -/
def lexemes (characters : List Char) : List Token := drain characters

/-! ### Character classes -/

namespace Alphabet

variable (c : Char)

theorem isBlank_iff : isBlank c = true ↔ c = ' ' ∨ c = '\t' ∨ c = '\n' ∨ c = '\r' := by
  simp only [isBlank, Bool.or_eq_true, beq_iff_eq, or_assoc]

theorem isWordPart_iff : isWordPart c = true ↔
    'A'.val ≤ c.val ∧ c.val ≤ 'Z'.val ∨ 'a'.val ≤ c.val ∧ c.val ≤ 'z'.val ∨ c = '_' := by
  change (decide ('A'.val ≤ c.val ∧ c.val ≤ 'Z'.val) ||
    decide ('a'.val ≤ c.val) && decide (c.val ≤ 'z'.val) || c == '_') = true ↔ _
  simp only [Bool.or_eq_true, Bool.and_eq_true, decide_eq_true_eq, beq_iff_eq, or_assoc]

theorem isBlank_ascii (blank : isBlank c = true) : c.toNat < 128 := by
  rcases (isBlank_iff c).mp blank with rfl | rfl | rfl | rfl <;> decide

theorem isDigit_ascii (digit : c.isDigit = true) : c.toNat < 128 := by
  simp only [Char.isDigit, Bool.and_eq_true, decide_eq_true_eq] at digit
  have most : c.toNat ≤ '9'.toNat := UInt32.le_iff_toNat_le.mp digit.2
  exact Nat.lt_of_le_of_lt most (by decide)

theorem isWordPart_ascii (part : isWordPart c = true) : c.toNat < 128 := by
  rcases (isWordPart_iff c).mp part with ⟨-, most⟩ | ⟨-, most⟩ | rfl
  · exact Nat.lt_of_le_of_lt (UInt32.le_iff_toNat_le.mp most) (by decide)
  · exact Nat.lt_of_le_of_lt (UInt32.le_iff_toNat_le.mp most) (by decide)
  · decide

end Alphabet

/-! ### Bytes -/

theorem getElem?_toByteArray (bytes : List UInt8) (place : Nat) :
    bytes.toByteArray[place]? = bytes[place]? := by
  by_cases inside : place < bytes.length
  · rw [getElem?_pos _ _ (by simpa using inside), List.getElem?_eq_getElem inside,
      List.getElem_toByteArray]
  · rw [getElem?_neg _ _ (by simpa using inside), List.getElem?_eq_none (Nat.le_of_not_lt inside)]

/-- On the border in front of a character stands its first byte. -/
theorem getElem?_utf8Encode (before after : List Char) (c : Char) :
    (before ++ c :: after).utf8Encode[before.utf8Encode.size]? =
      (String.utf8EncodeChar c).head? := by
  rw [List.utf8Encode, List.utf8Encode, getElem?_toByteArray, List.size_toByteArray,
    List.flatMap_append, List.getElem?_append_right (Nat.le_refl _), Nat.sub_self,
    List.flatMap_cons, ← List.head?_eq_getElem?,
    List.head?_append_of_ne_nil _ String.utf8EncodeChar_ne_nil]

/-- The first byte of an ASCII character is the character, and that of any other is beyond ASCII. -/
theorem head?_utf8EncodeChar (c : Char) :
    ∃ byte, (String.utf8EncodeChar c).head? = some byte ∧
      (c.toNat < 128 → Char.ofUInt8 byte = c) ∧
      (128 ≤ c.toNat → 128 ≤ (Char.ofUInt8 byte).toNat) := by
  have latin (byte : Nat) : (Char.ofUInt8 (UInt8.ofNat byte)).toNat = byte % 256 := by
    change (UInt8.ofNat byte).toUInt32.toNat = byte % 256
    simp
  have value : c.val.toNat = c.toNat := rfl
  unfold String.utf8EncodeChar
  rw [value]
  dsimp only
  split
  · refine ⟨_, rfl, fun _ => Char.toNat_inj.mp ?_, fun beyond => by omega⟩
    rw [latin]
    omega
  · next wide =>
    have beyond (byte : Nat) (high : 128 ≤ byte % 256) (more : List UInt8) :
        ∃ first, (UInt8.ofNat byte :: more).head? = some first ∧
          (c.toNat < 128 → Char.ofUInt8 first = c) ∧
          (128 ≤ c.toNat → 128 ≤ (Char.ofUInt8 first).toNat) :=
      ⟨_, rfl, fun ascii => by omega, fun _ => by rwa [latin]⟩
    split
    · exact beyond _ (by omega) _
    · split
      · exact beyond _ (by omega) _
      · exact beyond _ (by omega) _

namespace Scanner

/-- The scanner on one byte of its source, or at its end. -/
def cursor (source : ByteArray) (place : Nat) : Scanner :=
  ⟨source, place, min (place + 1) source.size, source[place]?⟩

/-- The scanner that has passed some characters of its source and not yet the others. -/
noncomputable def facing (before after : List Char) : Scanner :=
  cursor (before ++ after).utf8Encode before.utf8Encode.size

theorem step_cursor {source : ByteArray} {place : Nat} (inside : place < source.size) :
    (cursor source place).step = cursor source (place + 1) := by
  have next : min (place + 1) source.size = place + 1 := by omega
  simp only [step, cursor, next]
  congr 1
  split <;> omega

theorem skip_cursor {source : ByteArray} {place count : Nat}
    (inside : place + count ≤ source.size) :
    (cursor source place).skip count = cursor source (place + count) := by
  induction count generalizing place with
  | zero => rfl
  | succ count ih =>
    rw [skip, step_cursor (by omega), ih (by omega)]
    congr 1
    omega

theorem ofString_eq_facing (text : String) : ofString text = facing [] text.toList := by
  rw [ofString, facing, List.nil_append, String.utf8Encode_toList]
  have first : ([] : List Char).utf8Encode.size = 0 := rfl
  rw [first, step, cursor, String.toUTF8]
  congr 1
  dsimp only
  split <;> omega

variable {before after : List Char} {c : Char}

theorem current_facing_nil (before : List Char) : (facing before []).current = none := by
  simp only [facing, cursor, List.append_nil]
  exact getElem?_neg _ _ (Nat.lt_irrefl _)

theorem exists_current_facing (before after : List Char) (c : Char) :
    ∃ byte, (facing before (c :: after)).current = some byte ∧
      (c.toNat < 128 → Char.ofUInt8 byte = c) ∧
      (128 ≤ c.toNat → 128 ≤ (Char.ofUInt8 byte).toNat) := by
  obtain ⟨byte, first, class_⟩ := head?_utf8EncodeChar c
  exact ⟨byte, (getElem?_utf8Encode before after c).trans first, class_⟩

theorem size_utf8Encode_append (before after : List Char) :
    (before ++ after).utf8Encode.size = before.utf8Encode.size + after.utf8Encode.size := by
  rw [List.utf8Encode_append, ByteArray.size_append]

theorem size_utf8Encode_singleton (c : Char) : [c].utf8Encode.size = c.utf8Size := by
  simp [List.utf8Encode, String.length_utf8EncodeChar]

/-- As many bytes as a character has lead to the next one. -/
theorem skip_facing (before after : List Char) (c : Char) :
    (facing before (c :: after)).skip c.utf8Size = facing (before ++ [c]) after := by
  have size := size_utf8Encode_append before [c]
  rw [size_utf8Encode_singleton] at size
  rw [facing, facing, size, List.append_cons, skip_cursor]
  rw [size_utf8Encode_append, size]
  exact Nat.le_add_right ..

theorem step_facing (ascii : c.toNat < 128) (before after : List Char) :
    (facing before (c :: after)).step = facing (before ++ [c]) after := by
  have single : c.utf8Size = 1 := Char.utf8Size_eq_one_iff.mpr (by
    rw [UInt32.le_iff_toNat_le]
    exact Nat.le_of_lt_succ ascii)
  have skipped := skip_facing before after c
  rwa [single] at skipped

/-- On the border in front of a character this character is decoded. -/
theorem utf8DecodeChar?_facing (before after : List Char) (c : Char) :
    (facing before (c :: after)).source.utf8DecodeChar? (facing before (c :: after)).position =
      some c := by
  have left : ((before ++ c :: after).utf8Encode).extract before.utf8Encode.size
      (before ++ c :: after).utf8Encode.size = (c :: after).utf8Encode := by
    rw [List.utf8Encode_append, ByteArray.extract_append_eq_right rfl ByteArray.size_append]
  rw [facing, cursor, ByteArray.utf8DecodeChar?_eq_utf8DecodeChar?_extract, left,
    List.utf8DecodeChar?_utf8Encode_cons]

theorem width_facing (before after : List Char) (c : Char) :
    (facing before (c :: after)).width = c.utf8Size := by
  rw [width, utf8DecodeChar?_facing]
  rfl

/-- What lies between two borders is the text of the characters between them. -/
theorem slice?_facing (before passed after : List Char) :
    (facing before (passed ++ after)).slice? (facing before (passed ++ after)).position
      (facing (before ++ passed) after).position = some (String.ofList passed) := by
  have held : ((before ++ (passed ++ after)).utf8Encode).extract before.utf8Encode.size
      (before ++ passed).utf8Encode.size = passed.utf8Encode := by
    rw [size_utf8Encode_append, List.utf8Encode_append, List.utf8Encode_append,
      ← Nat.add_zero before.utf8Encode.size, Nat.add_assoc, ByteArray.extract_append_size_add,
      ByteArray.extract_append_eq_left (Nat.zero_add _)]
  rw [slice?, facing, facing, cursor, cursor, held, String.fromUTF8?,
    dif_pos (ByteArray.isValidUTF8_utf8Encode)]
  rfl

theorem between_facing (before passed after : List Char) :
    between (facing before (passed ++ after)) (facing (before ++ passed) after) =
      String.ofList passed := by
  rw [between, slice?_facing]
  rfl

/-- The bytes of a class of ASCII characters are those of the characters in it. -/
theorem skipClass_facing {accept : Char → Bool}
    (ascii : ∀ c, accept c = true → c.toNat < 128) (before after : List Char) :
    (facing before after).skipClass accept =
      facing (before ++ after.takeWhile accept) (after.dropWhile accept) := by
  induction after generalizing before with
  | nil =>
    rw [skipClass, skipWhile, List.takeWhile_nil, List.dropWhile_nil, List.append_nil]
    split
    · next held => rw [current_facing_nil] at held; cases held
    · rfl
  | cons c after ih =>
    obtain ⟨byte, first, same, beyond⟩ := exists_current_facing before after c
    rw [skipClass, skipWhile]
    split
    · next byte' held =>
      obtain rfl := Option.some.inj (first.symm.trans held)
      cases taken : accept c with
      | true =>
        rw [same (ascii c taken), taken, if_pos rfl, step_facing (ascii c taken),
          List.takeWhile_cons, List.dropWhile_cons, taken, if_pos rfl, if_pos rfl]
        refine (ih (before ++ [c])).trans ?_
        rw [List.append_assoc, List.singleton_append]
      | false =>
        have refused : accept (Char.ofUInt8 byte) = false := by
          rcases Nat.lt_or_ge c.toNat 128 with small | large
          · rw [same small, taken]
          · by_contra accepted
            have := ascii _ (by simpa using accepted)
            have := beyond large
            omega
        rw [refused, List.takeWhile_cons, List.dropWhile_cons, taken]
        simp
    · next missing => rw [first] at missing; cases missing

/-- The bytes of a class are sliced to the text of the characters in it. -/
theorem between_skipClass {accept : Char → Bool} (ascii : ∀ c, accept c = true → c.toNat < 128)
    (before after : List Char) :
    (facing before after).between ((facing before after).skipClass accept) =
      String.ofList (after.takeWhile accept) := by
  have sliced := between_facing before (after.takeWhile accept) (after.dropWhile accept)
  rwa [List.takeWhile_append_dropWhile, ← skipClass_facing ascii] at sliced

theorem lookahead_eq (s : Scanner) : s.lookahead = s.step.current := rfl

theorem symbol_facing (ascii : c.toNat < 128) (before after : List Char) :
    ∃ passed, (facing before (c :: after)).symbol c =
      ((symbolAt c after).1, facing (before ++ passed) (symbolAt c after).2) := by
  have single : (facing before (c :: after)).step = facing (before ++ [c]) after :=
    step_facing ascii before after
  rw [symbol, symbolAt, lookahead_eq, single]
  cases Kind.withEquals? c with
  | none => exact ⟨[c], rfl⟩
  | some pair =>
    cases after with
    | nil =>
      rw [current_facing_nil]
      exact ⟨[c], rfl⟩
    | cons second after =>
      obtain ⟨byte, first, small, beyond⟩ := exists_current_facing (before ++ [c]) after second
      by_cases same : second = '='
      · subst same
        have held : (facing (before ++ [c]) ('=' :: after)).current = some '='.toUInt8 :=
          getElem?_utf8Encode (before ++ [c]) after '='
        rw [held, step_facing (by decide)]
        exact ⟨[c] ++ ['='], by simp⟩
      · have other : byte ≠ '='.toUInt8 := by
          rintro rfl
          rcases Nat.lt_or_ge second.toNat 128 with ascii | wide
          · exact same (small ascii).symm
          · exact absurd (beyond wide) (by decide)
        rw [first]
        exact ⟨[c], by simp [same, other]⟩

/-- A character beyond ASCII is in no class and no symbol. -/
theorem foreign_facing (wide : 128 ≤ c.toNat) (before after : List Char) :
    (facing before (c :: after)).foreign =
      ((symbolAt c after).1, facing (before ++ [c]) (symbolAt c after).2) := by
  have alone : symbolAt c after = (⟨.illegal, c.toString⟩, after) := by
    have none : Kind.ofSymbol? c = none := by
      unfold Kind.ofSymbol?
      split <;> first | rfl | exact absurd wide (by decide)
    have none' : Kind.withEquals? c = Option.none := by
      unfold Kind.withEquals?
      split <;> first | rfl | exact absurd wide (by decide)
    rw [symbolAt, none, none']
    rfl
  rw [alone, foreign, width_facing, skip_facing]
  dsimp only
  rw [← List.singleton_append, between_facing]
  rfl

/-- The scanner takes the next token of the characters ahead and passes its characters. -/
theorem next_facing (before after : List Char) :
    ∃ passed, (facing before after).next =
      ((lexeme after).1, facing (before ++ passed) (lexeme after).2) := by
  have blanks := skipClass_facing Alphabet.isBlank_ascii before after
  rw [next, blanks, lexeme]
  dsimp only
  generalize after.takeWhile Alphabet.isBlank = blank
  cases after.dropWhile Alphabet.isBlank with
  | nil =>
    rw [current_facing_nil]
    exact ⟨blank, rfl⟩
  | cons c rest =>
    obtain ⟨byte, first, same, beyond⟩ := exists_current_facing (before ++ blank) rest c
    rw [first]
    dsimp only
    rcases Nat.lt_or_ge c.toNat 128 with ascii | wide
    · rw [same ascii]
      split
      · next part =>
        refine ⟨blank ++ (c :: rest).takeWhile Alphabet.isWordPart, ?_⟩
        rw [word]
        dsimp only
        rw [between_skipClass Alphabet.isWordPart_ascii,
          skipClass_facing Alphabet.isWordPart_ascii, List.dropWhile_cons, if_pos part,
          List.append_assoc]
      · split
        · next digit =>
          refine ⟨blank ++ (c :: rest).takeWhile Char.isDigit, ?_⟩
          rw [number]
          dsimp only
          rw [between_skipClass Alphabet.isDigit_ascii, skipClass_facing Alphabet.isDigit_ascii,
            List.dropWhile_cons, if_pos digit, List.append_assoc]
        · obtain ⟨passed, taken⟩ := symbol_facing ascii (before ++ blank) rest
          rw [taken]
          exact ⟨blank ++ passed, by rw [List.append_assoc]⟩
    · have beyond := beyond wide
      have outside {accept : Char → Bool} (ascii : ∀ c, accept c = true → c.toNat < 128)
          {c : Char} (wide : 128 ≤ c.toNat) : ¬ accept c = true := fun accepted =>
        absurd (ascii c accepted) (Nat.not_lt.mpr wide)
      rw [if_neg (outside Alphabet.isWordPart_ascii beyond),
        if_neg (outside Alphabet.isDigit_ascii beyond), if_neg (Nat.not_lt.mpr beyond),
        if_neg (outside Alphabet.isWordPart_ascii wide),
        if_neg (outside Alphabet.isDigit_ascii wide), foreign_facing wide]
      exact ⟨blank ++ [c], by rw [List.append_assoc]⟩

/-- A scanner yields the tokens that the characters ahead spell. -/
theorem alike_facing (before after : List Char) : Alike (facing before after) after := by
  intro count
  induction count generalizing before after with
  | zero => rfl
  | succ count ih =>
    obtain ⟨passed, taken⟩ := next_facing before after
    change (facing before after).next.1 :: take count (facing before after).next.2 = _
    rw [taken, ih]
    rfl

end Scanner

end ScriptReader
