import ScriptReader.Proofs.Lexemes

/-! # The cursor of a scanner

A scanner keeps two indices and the byte at one of them. However it has been used, the three agree:
the cursor stands on the border of two characters of the text that was installed last, so that every
slice a token is made of lies within the text and is a text itself. Of what was read before nothing
is left but the place: the tokens to come are those of the text behind the cursor. Each token moves
the cursor on, up to the end of input, where the scanner stays until it is loaded again.
-/

namespace ScriptReader.Scanner

/-- A scanner in use, with the text that it holds: new with a text or without one, then advanced,
emptied and loaded in any order. A copy of a scanner is the same scanner. -/
inductive Reached : String → Scanner → Prop
  | empty : Reached "" .empty
  | ofString (text : String) : Reached text (.ofString text)
  | next {text : String} {s : Scanner} (before : Reached text s) : Reached text s.next.2
  | reset {text : String} {s : Scanner} (before : Reached text s) : Reached "" s.reset
  | load {text : String} {s : Scanner} (other : String) (before : Reached text s) :
    Reached other (s.load other)

/-- What becomes of a scanner that is not loaded again. -/
inductive Unloaded (s : Scanner) : Scanner → Prop
  | refl : Unloaded s s
  | next {t : Scanner} (before : Unloaded s t) : Unloaded s t.next.2
  | reset {t : Scanner} (before : Unloaded s t) : Unloaded s t.reset

/-- The indices and the byte of the scanner agree, and its cursor stands between two characters. -/
structure Placed (text : String) (s : Scanner) : Prop where
  source_eq : s.source = text.toUTF8
  border : (⟨s.position⟩ : String.Pos.Raw).IsValid text
  within : s.position ≤ s.source.size
  current_eq : s.current = s.source[s.position]?
  current_eq_none_iff : s.current = none ↔ s.position = s.source.size
  readPosition_eq : s.readPosition = min (s.position + 1) s.source.size

/-- The slice between two cursors lies within the text, from one border of characters to another,
and is a text. -/
structure Cut (text : String) (start stop : Scanner) : Prop where
  opens : (⟨start.position⟩ : String.Pos.Raw).IsValid text
  closes : (⟨stop.position⟩ : String.Pos.Raw).IsValid text
  ordered : start.position ≤ stop.position
  taken : start.slice? start.position stop.position = some (start.between stop)

/-- Whatever token begins here, its slice can be taken, and a character that has to be decoded is
decoded. -/
structure Sliced (text : String) (s : Scanner) : Prop where
  word : Cut text s (s.skipClass Alphabet.isWordPart)
  number : Cut text s (s.skipClass Char.isDigit)
  foreign : s.current.isSome →
    (∃ c, s.source.utf8DecodeChar? s.position = some c ∧ s.width = c.utf8Size) ∧
      Cut text s (s.skip s.width)

/-! ### Borders of characters -/

section Facing

variable {text : String} {before passed after : List Char}

theorem isValid_facing (split : before ++ after = text.toList) :
    (⟨(facing before after).position⟩ : String.Pos.Raw).IsValid text := by
  refine String.Pos.Raw.isValid_iff_exists_append.mpr
    ⟨String.ofList before, String.ofList after, ?_, ?_⟩
  · rw [← String.ofList_append, split, String.ofList_toList]
  · change _ = (⟨(String.ofList before).toByteArray.size⟩ : String.Pos.Raw)
    rw [String.toByteArray_ofList]
    rfl

theorem placed_facing (split : before ++ after = text.toList) :
    (facing before after).Placed text := by
  have within : (facing before after).position ≤ (facing before after).source.size := by
    change before.utf8Encode.size ≤ (before ++ after).utf8Encode.size
    rw [size_utf8Encode_append]
    exact Nat.le_add_right _ _
  refine ⟨?_, isValid_facing split, within, rfl, ?_, rfl⟩
  · change (before ++ after).utf8Encode = _
    rw [split, String.utf8Encode_toList]
    rfl
  · change (facing before after).source[(facing before after).position]? = none ↔ _
    rw [getElem?_eq_none_iff]
    omega

theorem cut_facing (split : before ++ (passed ++ after) = text.toList) :
    Cut text (facing before (passed ++ after)) (facing (before ++ passed) after) := by
  refine ⟨isValid_facing split, isValid_facing (by rw [List.append_assoc, split]), ?_, ?_⟩
  · change before.utf8Encode.size ≤ (before ++ passed).utf8Encode.size
    rw [size_utf8Encode_append]
    exact Nat.le_add_right _ _
  · rw [slice?_facing, between_facing]

/-- A class of ASCII characters is passed from border to border. -/
theorem cut_skipClass {accept : Char → Bool} (ascii : ∀ c, accept c = true → c.toNat < 128)
    (split : before ++ after = text.toList) :
    Cut text (facing before after) ((facing before after).skipClass accept) := by
  have whole : after.takeWhile accept ++ after.dropWhile accept = after :=
    List.takeWhile_append_dropWhile
  rw [skipClass_facing ascii]
  have cut : Cut text (facing before (after.takeWhile accept ++ after.dropWhile accept)) _ :=
    cut_facing (by rw [whole, split])
  rwa [whole] at cut

theorem sliced_facing (split : before ++ after = text.toList) :
    (facing before after).Sliced text := by
  refine ⟨cut_skipClass Alphabet.isWordPart_ascii split, cut_skipClass Alphabet.isDigit_ascii split,
    fun held => ?_⟩
  cases after with
  | nil =>
    rw [current_facing_nil] at held
    cases held
  | cons c after =>
    rw [width_facing, skip_facing]
    exact ⟨⟨c, utf8DecodeChar?_facing before after c, rfl⟩, @cut_facing _ before [c] after split⟩

end Facing

/-! ### Every scanner in use -/

section Source

theorem source_skipWhile (accept : UInt8 → Bool) (s : Scanner) :
    (s.skipWhile accept).source = s.source := by
  fun_induction skipWhile accept s with
  | case1 s _ _ _ ih => exact ih
  | case2 => rfl
  | case3 => rfl

theorem source_skip (s : Scanner) (count : Nat) : (s.skip count).source = s.source := by
  induction count generalizing s with
  | zero => rfl
  | succ count ih => exact ih s.step

theorem source_symbol (s : Scanner) (c : Char) : (s.symbol c).2.source = s.source := by
  unfold symbol
  split
  · split <;> rfl
  · rfl

/-- Reading leaves the text as it is. -/
theorem source_next (s : Scanner) : s.next.2.source = s.source := by
  have blanks : (s.skipClass Alphabet.isBlank).source = s.source := source_skipWhile _ s
  unfold next
  dsimp only
  split
  · exact blanks
  · split
    · exact (source_skipWhile _ _).trans blanks
    · split
      · exact (source_skipWhile _ _).trans blanks
      · split
        · exact (source_symbol _ _).trans blanks
        · exact (source_skip _ _).trans blanks

end Source

variable {text : String} {s t : Scanner}

theorem eq_of_utf8Encode_eq {characters others : List Char}
    (same : characters.utf8Encode = others.utf8Encode) : characters = others := by
  rw [← String.toByteArray_ofList, ← String.toByteArray_ofList, String.toByteArray_inj] at same
  exact String.ofList_injective same

/-- The text is split at the cursor. -/
theorem exists_facing_of_reached (reached : Reached text s) :
    ∃ before after, before ++ after = text.toList ∧ s = facing before after := by
  have new (text : String) : ∃ before after, before ++ after = text.toList ∧
      ofString text = facing before after :=
    ⟨[], text.toList, rfl, ofString_eq_facing text⟩
  induction reached with
  | empty => exact new ""
  | ofString text => exact new text
  | next _ ih =>
    obtain ⟨before, after, split, rfl⟩ := ih
    obtain ⟨passed, taken⟩ := next_facing before after
    refine ⟨before ++ passed, (lexeme after).2, ?_, by rw [taken]⟩
    have same := source_next (facing before after)
    rw [taken] at same
    rw [← split]
    exact eq_of_utf8Encode_eq same
  | reset => exact new ""
  | load other => exact new other

/-- In use the indices and the byte of a scanner never disagree. -/
theorem placed_of_reached (reached : Reached text s) : s.Placed text := by
  obtain ⟨before, after, split, rfl⟩ := exists_facing_of_reached reached
  exact placed_facing split

/-- The tokens to come are those of a new scanner on the rest of the text. -/
theorem exists_unread_of_reached (reached : Reached text s) :
    ∃ unread, s.slice? s.position s.source.size = some unread ∧
      ∀ count, TokenStream.take count s = TokenStream.take count (ofString unread) := by
  obtain ⟨before, after, -, rfl⟩ := exists_facing_of_reached reached
  have rest := slice?_facing before after []
  rw [List.append_nil] at rest
  have size : (facing before after).source.size = (facing (before ++ after) []).position := rfl
  refine ⟨String.ofList after, by rw [size, rest], fun count => ?_⟩
  rw [ofString_eq_facing, String.toList_ofList]
  exact (alike_facing before after count).trans (alike_facing [] after count).symm

theorem Placed.ahead_eq (placed : s.Placed text) : s.ahead = s.source.size - s.position := by
  have within := placed.within
  have ended := placed.current_eq_none_iff
  rw [ahead, placed.readPosition_eq]
  cases held : s.current with
  | none =>
    have last := ended.mp held
    simp
    omega
  | some byte =>
    have inside : s.position ≠ s.source.size := fun last => by
      rw [ended.mpr last] at held
      cases held
    simp
    omega

/-- A token is read from at least one byte. -/
theorem position_lt_of_reached (reached : Reached text s)
    (present : s.next.1.kind ≠ .endOfInput) : s.position < s.next.2.position := by
  have placed := placed_of_reached reached
  have placed' := placed_of_reached reached.next
  have fewer := weight_next s
  rw [Token.weight_eq_one present, placed.ahead_eq, placed'.ahead_eq, source_next] at fewer
  omega

/-- Without a new text an exhausted scanner stays exhausted. -/
theorem Unloaded.current_eq_none (ended : s.current = none) (unloaded : Unloaded s t) :
    t.current = none := by
  induction unloaded with
  | refl => exact ended
  | next _ ih =>
    rw [next_of_exhausted ih]
    exact ih
  | reset => rfl

/-- However a scanner was used, its indices and its byte agree and it stands between two characters,
before the blanks to be passed and behind them, and what it takes for a token is a text. It yields
what a new scanner on the rest of the text does. Each token moves the cursor on, but for the end of
input, which comes again and again and changes nothing until the scanner is loaded. -/
theorem reached_cursor (reached : Reached text s) :
    s.Placed text ∧
    (s.skipClass Alphabet.isBlank).Placed text ∧ (s.skipClass Alphabet.isBlank).Sliced text ∧
    (∃ unread, s.slice? s.position s.source.size = some unread ∧
      ∀ count, TokenStream.take count s = TokenStream.take count (ofString unread)) ∧
    (s.next.1 = .endOfInput ∨ s.position < s.next.2.position) ∧
    (s.next.1.kind = .endOfInput →
      ∀ t, Unloaded s.next.2 t → t.next = (.endOfInput, t)) := by
  have unread := exists_unread_of_reached reached
  have onward : s.next.1 = .endOfInput ∨ s.position < s.next.2.position := by
    by_cases ended : s.next.1.kind = .endOfInput
    · exact .inl (next_of_endOfInput ended).1
    · exact .inr (position_lt_of_reached reached ended)
  obtain ⟨before, after, split, rfl⟩ := exists_facing_of_reached reached
  have split' : (before ++ after.takeWhile Alphabet.isBlank) ++ after.dropWhile Alphabet.isBlank =
      text.toList := by
    rw [List.append_assoc, List.takeWhile_append_dropWhile, split]
  refine ⟨placed_of_reached reached, ?_, ?_, unread, onward, fun ended t unloaded => ?_⟩
  · rw [skipClass_facing Alphabet.isBlank_ascii]
    exact placed_facing split'
  · rw [skipClass_facing Alphabet.isBlank_ascii]
    exact sliced_facing split'
  · exact next_of_exhausted (unloaded.current_eq_none (next_of_endOfInput ended).2)

/-- The letter in front is two bytes long. -/
theorem reached_cursor_accent :
    ∃ s : Scanner, s = (ofString "é1").next.2 ∧ s.position = 2 ∧ s.Placed "é1" ∧
      ∃ unread, s.slice? s.position s.source.size = some unread ∧
        ∀ count, TokenStream.take count s = TokenStream.take count (ofString unread) := by
  have told := reached_cursor (.next (.ofString "é1"))
  exact ⟨_, rfl, by decide +kernel, told.1, told.2.2.2.1⟩

end ScriptReader.Scanner
