import ScriptReader.Proofs.Munch

/-! # Scanning across a seam

When one text is put behind another, only the last token of the first one may change, and only if it
reaches up to the seam and draws in the first character behind it. All other tokens of the two texts
stay as they are. A blank at the seam always keeps the texts apart.
-/

namespace ScriptReader

/-- How scanning goes on behind some characters: all their tokens stay when they end in a blank, and
all but the last one when they end in a token. -/
inductive Parted (characters : List Char) (tokens : List Token) : Prop
  | blank (ends : ∀ last ∈ characters.getLast?, Alphabet.isBlank last = true)
      (stays : ∀ rest, lexemes (characters ++ rest) = tokens ++ lexemes rest)
  | token {before : List Token} {token : Token} (split : tokens = before ++ [token])
      (spelled : token.Spelled) (ends : characters.getLast? = token.literal.toList.getLast?)
      (stays : ∀ rest, lexemes (characters ++ rest) =
        before ++ lexemes (token.literal.toList ++ rest))

theorem Munched.parted {characters : List Char} {tokens : List Token}
    (munched : Munched characters tokens) : Parted characters tokens := by
  induction munched with
  | nil => exact .blank nofun fun _ => rfl
  | @blank c rest tokens blank behind ih =>
    have skipped (more : List Char) : lexemes (c :: rest ++ more) = lexemes (rest ++ more) :=
      lexemes_blank blank _
    cases ih with
    | blank ends stays =>
      refine .blank ?_ fun more => (skipped more).trans (stays more)
      cases rest with
      | nil =>
        rintro last ⟨⟩
        exact blank
      | cons => exact ends
    | @token before token split spelled ends stays =>
      refine .token split spelled ?_ fun more => (skipped more).trans (stays more)
      cases rest with
      | nil =>
        have empty := List.getLast?_eq_none_iff.mp ends.symm
        exact (spelled.literal_ne_nil empty).elim
      | cons => exact ends
  | @token token rest tokens maximal behind ih =>
    cases rest with
    | nil =>
      obtain rfl : tokens = [] := behind.lexemes_eq.symm.trans lexemes_nil
      have alone : [token] = [] ++ [token] := rfl
      refine .token alone maximal.spelled ?_ fun more => ?_
      · rw [List.append_nil]
      · rw [List.append_nil, List.nil_append]
    | cons c rest =>
      have taken (more : List Char) : lexemes (token.literal.toList ++ c :: rest ++ more) =
          token :: lexemes (c :: rest ++ more) := by
        rw [List.append_assoc]
        exact maximal.spelled.lexemes_append maximal.ends
      have last : (token.literal.toList ++ c :: rest).getLast? = (c :: rest).getLast? :=
        List.getLast?_append_of_ne_nil _ nofun
      cases ih with
      | blank ends stays =>
        refine .blank ?_ fun more => ?_
        · rw [last]
          exact ends
        · rw [taken, stays]
          rfl
      | @token before final split spelled ends stays =>
        have split : token :: tokens = (token :: before) ++ [final] := congrArg (token :: ·) split
        refine .token split spelled (last.trans ends) fun more => ?_
        rw [taken, stays]
        rfl

namespace Kind

theorem ofWord_ne_of_assign_or_not (word : String) :
    ¬ (ofWord word = .assign ∨ ofWord word = .not) := by
  have each : ∀ entry ∈ reserved, ¬ (entry.2 = .assign ∨ entry.2 = .not) := by decide
  rcases ofWord_eq word with named | among
  · rw [named]
    decide
  · exact each _ among

theorem joins_symbol_iff (c next : Char) :
    ((ofSymbol? c).getD .illegal).joins next = true ↔ next = '=' ∧
      ((ofSymbol? c).getD .illegal = .assign ∨ (ofSymbol? c).getD .illegal = .not) := by
  unfold ofSymbol?
  split <;> simp [joins]

end Kind

namespace Token.Spelled

variable {token : Token} {rest : List Char}

/-- A token stays as it is only where nothing behind it is drawn in. -/
theorem lexemes_append_iff (spelled : token.Spelled) :
    lexemes (token.literal.toList ++ rest) = token :: lexemes rest ↔
      ∀ next ∈ rest.head?, token.kind.joins next = false := by
  constructor
  · intro read
    obtain ⟨c, more, first⟩ := List.exists_cons_of_ne_nil spelled.literal_ne_nil
    have blank := spelled.not_isBlank c (by rw [first]; exact .head _)
    obtain ⟨other, behind, maximal, split⟩ := exists_maximal blank (more ++ rest)
    rw [← List.cons_append, ← first] at split
    -- The longest token at this place is the token itself, so it ends where the rest begins.
    rw [split, maximal.spelled.lexemes_append maximal.ends, List.cons.injEq] at read
    obtain ⟨rfl, -⟩ := read
    obtain rfl := List.append_cancel_left split
    exact maximal.ends
  · intro ends
    exact spelled.lexemes_append ends

/-- What a token draws in is decided by its last character, but for an assignment and a negation. -/
theorem joins_iff (spelled : token.Spelled) {last : Char}
    (ends : token.literal.toList.getLast? = some last) (next : Char) :
    token.kind.joins next = true ↔
      Alphabet.isWordPart last = true ∧ Alphabet.isWordPart next = true ∨
        last.isDigit = true ∧ next.isDigit = true ∨
        next = '=' ∧ (token.kind = .assign ∨ token.kind = .not) := by
  cases spelled with
  | @word word _ parts =>
    rw [String.toList_ofList] at ends
    have part := parts last (List.mem_of_getLast? ends)
    have digit : ¬ last.isDigit = true := fun digit =>
      Bool.false_ne_true ((Alphabet.not_isWordPart_of_isDigit digit).symm.trans part)
    simp [Kind.joins_ofWord, Kind.ofWord_ne_of_assign_or_not, part, digit]
  | @number digits _ parts =>
    rw [String.toList_ofList] at ends
    have digit := parts last (List.mem_of_getLast? ends)
    simp [Kind.joins, digit, Alphabet.not_isWordPart_of_isDigit digit]
  | @symbol c blank word digit =>
    rw [Char.toString, String.toList_singleton] at ends
    obtain rfl : c = last := by simpa using ends
    simp [Kind.joins_symbol_iff, word, digit]
  | @pair c kind pairs =>
    rw [String.toList_append] at ends
    obtain rfl : '=' = last := by simpa using ends
    revert pairs
    unfold Kind.withEquals?
    split <;> rintro ⟨⟩ <;> simp [Kind.joins, Alphabet.isWordPart]

/-- An assignment and a negation are one character long. -/
theorem eq_of_assign_or_not (spelled : token.Spelled) {last : Char}
    (ends : token.literal.toList.getLast? = some last)
    (opens : token.kind = .assign ∨ token.kind = .not) : token = ⟨token.kind, last.toString⟩ := by
  have literal : token.literal = last.toString := by
    rcases opens with kind | kind
    · have literal := spelled.literal_eq "=" (by rw [kind]; rfl)
      rw [literal] at ends ⊢
      obtain rfl : '=' = last := by simpa using ends
      rfl
    · have literal := spelled.literal_eq "!" (by rw [kind]; rfl)
      rw [literal] at ends ⊢
      obtain rfl : '!' = last := by simpa using ends
      rfl
  rw [← literal]

end Token.Spelled

/-- The last character of the first text and the first one of the second belong together: both to a
word, both to a number, or to an operator whose first half ends the first text. -/
def Merges (left right : String) : Prop :=
  ∃ last first, left.toList.getLast? = some last ∧ right.toList.head? = some first ∧
    (Alphabet.isWordPart last = true ∧ Alphabet.isWordPart first = true ∨
      last.isDigit = true ∧ first.isDigit = true ∨
      first = '=' ∧ ∃ before kind, (kind = .assign ∨ kind = .not) ∧
        tokenize left = before ++ [⟨kind, last.toString⟩, .endOfInput])

theorem dropLast_tokenize (text : String) : (tokenize text).dropLast = lexemes text.toList := by
  rw [tokenize_eq, List.dropLast_concat]

theorem tokenize_append_eq_iff (left right : String) :
    tokenize (left ++ right) = (tokenize left).dropLast ++ tokenize right ↔
      lexemes (left.toList ++ right.toList) = lexemes left.toList ++ lexemes right.toList := by
  rw [dropLast_tokenize, tokenize_eq, tokenize_eq, String.toList_append, ← List.append_assoc,
    List.append_left_inj]

/-- Behind a text that ends in a token, the other text merges with it if it begins with a character
that the token draws in. -/
theorem merges_iff_of_token {left right : String} {before : List Token} {token : Token}
    (split : lexemes left.toList = before ++ [token]) (spelled : token.Spelled)
    (ends : left.toList.getLast? = token.literal.toList.getLast?) :
    Merges left right ↔ ∃ next ∈ right.toList.head?, token.kind.joins next = true := by
  have scanned : tokenize left = before ++ [token, .endOfInput] := by
    rw [tokenize_eq, split, List.append_assoc]
    rfl
  constructor
  · rintro ⟨last, first, final, follows, together⟩
    rw [final] at ends
    refine ⟨first, follows, (spelled.joins_iff ends.symm first).mpr ?_⟩
    refine together.imp_right (Or.imp_right ?_)
    rintro ⟨equals, others, kind, opens, scanned'⟩
    rw [scanned] at scanned'
    obtain ⟨-, same⟩ := List.append_inj' scanned' rfl
    obtain rfl : token = ⟨kind, last.toString⟩ := by simpa using same
    exact ⟨equals, opens⟩
  · rintro ⟨next, follows, joined⟩
    obtain ⟨last, final⟩ : ∃ last, token.literal.toList.getLast? = some last :=
      Option.isSome_iff_exists.mp (List.getLast?_isSome.mpr spelled.literal_ne_nil)
    refine ⟨last, next, ends.trans final, follows, ?_⟩
    refine ((spelled.joins_iff final next).mp joined).imp_right (Or.imp_right ?_)
    rintro ⟨equals, opens⟩
    refine ⟨equals, before, token.kind, opens, ?_⟩
    rw [← spelled.eq_of_assign_or_not final opens, scanned]

/-- Behind a text that ends in a blank nothing merges with it. -/
theorem not_merges_of_blank {left : String} (right : String)
    (ends : ∀ last ∈ left.toList.getLast?, Alphabet.isBlank last = true) : ¬ Merges left right := by
  rintro ⟨last, first, final, -, together⟩
  have blank := ends last final
  rcases together with ⟨part, -⟩ | ⟨digit, -⟩ | ⟨-, before, kind, -, scanned⟩
  · rw [Alphabet.not_isBlank_of_isWordPart part] at blank
    cases blank
  · rw [Alphabet.not_isBlank_of_isDigit digit] at blank
    cases blank
  · rw [tokenize_eq, List.append_cons before, List.append_left_inj] at scanned
    obtain ⟨tokens, munched⟩ := exists_munched left.toList
    have spelled := munched.spelled ⟨kind, last.toString⟩ (by
      rw [← munched.lexemes_eq, scanned]
      exact List.mem_append_right _ (.head _))
    rw [spelled.not_isBlank last (by simp [Char.toString])] at blank
    cases blank

/-- Two texts are scanned one behind the other, unless they merge at the seam. -/
theorem tokenize_append_iff (left right : String) :
    tokenize (left ++ right) = (tokenize left).dropLast ++ tokenize right ↔
      ¬ Merges left right := by
  rw [tokenize_append_eq_iff]
  obtain ⟨tokens, munched⟩ := exists_munched left.toList
  rw [munched.lexemes_eq]
  cases munched.parted with
  | blank ends stays => exact iff_of_true (stays _) (not_merges_of_blank right ends)
  | @token before token split spelled ends stays =>
    have split' : lexemes left.toList = before ++ [token] := munched.lexemes_eq.trans split
    rw [merges_iff_of_token split' spelled ends, stays, split, List.append_assoc,
      List.append_right_inj, List.singleton_append, spelled.lexemes_append_iff]
    simp

/-- Nothing merges with a text that begins with a blank. -/
theorem not_merges_blank {blank : Char} (isBlank : Alphabet.isBlank blank = true)
    (left right : String) : ¬ Merges left (blank.toString ++ right) := by
  rintro ⟨last, first, -, follows, together⟩
  obtain rfl : blank = first := by simpa [Char.toString] using follows
  rcases together with ⟨-, part⟩ | ⟨-, digit⟩ | ⟨rfl, -⟩
  · rw [Alphabet.not_isBlank_of_isWordPart part] at isBlank
    cases isBlank
  · rw [Alphabet.not_isBlank_of_isDigit digit] at isBlank
    cases isBlank
  · cases isBlank

theorem tokenize_blank {blank : Char} (isBlank : Alphabet.isBlank blank = true) (right : String) :
    tokenize (blank.toString ++ right) = tokenize right := by
  rw [tokenize_eq, tokenize_eq, String.toList_append, Char.toString, String.toList_singleton,
    List.singleton_append, lexemes_blank isBlank]

/-- Blanks at the end of a text do not matter. -/
theorem lexemes_append_blanks (characters : List Char) {blanks : List Char}
    (isBlank : ∀ c ∈ blanks, Alphabet.isBlank c = true) :
    lexemes (characters ++ blanks) = lexemes characters := by
  induction blanks generalizing characters with
  | nil => rw [List.append_nil]
  | cons c blanks ih =>
    obtain ⟨first, others⟩ := List.forall_mem_cons.mp isBlank
    have apart := not_merges_blank first (.ofList characters) (.ofList blanks)
    rw [← tokenize_append_iff, tokenize_append_eq_iff, String.toList_append, Char.toString,
      String.toList_singleton, String.toList_ofList, String.toList_ofList,
      List.singleton_append] at apart
    have nothing : lexemes blanks = [] := (ih [] others).trans lexemes_nil
    rw [apart, lexemes_blank first, nothing, List.append_nil]

/-- Tokens with a space behind each one are read as they are. -/
theorem lexemes_spaced {tokens : List Token} (spelled : ∀ token ∈ tokens, token.Spelled) :
    lexemes (" ".intercalate (tokens.map Token.literal ++ [""])).toList = tokens := by
  rw [String.toList_intercalate]
  induction tokens with
  | nil => exact lexemes_nil
  | cons token rest ih =>
    obtain ⟨spelled, spelled'⟩ := List.forall_mem_cons.mp spelled
    have behind : (rest.map Token.literal ++ [""]).map String.toList ≠ [] := by simp
    rw [List.map_cons, List.cons_append, List.map_cons, List.intercalate_cons_of_ne_nil behind]
    have apart (behind : List Char) : ∀ next ∈ (' ' :: behind).head?,
        token.kind.joins next = false := by
      rintro next ⟨⟩
      cases token.kind <;> rfl
    simp only [String.reduceToList, List.append_assoc, List.singleton_append] at ih ⊢
    rw [spelled.lexemes_append (apart _), lexemes_blank rfl, ih spelled']

/-- Two texts are scanned one behind the other, unless they merge at the seam. They never do with a
blank in between, and so a text with a space between its tokens is scanned to the same tokens. -/
theorem tokenize_append (left right : String) :
    (tokenize (left ++ right) = (tokenize left).dropLast ++ tokenize right ↔
      ¬ Merges left right) ∧
    (∀ blank ∈ [' ', '\t', '\n', '\r'],
      tokenize (left ++ (blank.toString ++ right)) = (tokenize left).dropLast ++ tokenize right) ∧
    tokenize (" ".intercalate ((tokenize left).map Token.literal)) = tokenize left := by
  refine ⟨tokenize_append_iff left right, fun blank among => ?_, ?_⟩
  · have isBlank : Alphabet.isBlank blank = true :=
      (Alphabet.isBlank_iff blank).mpr (by simpa using among)
    rw [(tokenize_append_iff left _).mpr (not_merges_blank isBlank left right),
      tokenize_blank isBlank]
  · obtain ⟨tokens, munched⟩ := exists_munched left.toList
    have spaced := lexemes_spaced munched.spelled
    rw [← munched.lexemes_eq] at spaced
    rw [tokenize_eq left, List.map_append, tokenize_eq]
    exact congrArg (· ++ [Token.endOfInput]) spaced

/-- An assignment at the end of a text is half of an operator, but a comparison is not. -/
example : Merges "a =" "= b" ∧ ¬ Merges "a ==" "= b" :=
  ⟨⟨'=', '=', rfl, rfl, .inr (.inr ⟨rfl, [⟨.identifier, "a"⟩], .assign, .inl rfl,
    by decide +kernel⟩)⟩, (tokenize_append_iff _ _).mp (by decide +kernel)⟩

end ScriptReader
