import ScriptReader.Proofs.Lexemes

/-! # The longest token

What a text is scanned to can be said without a scanner. Blanks are left out, and at any other
character stands the longest word, the longest number, an operator of two characters, one symbol, or
else one illegal character. This determines the tokens of every text, and they are the ones that the
scanner yields.
-/

namespace ScriptReader

/-- A run of characters of a class, as far as the class goes. -/
structure Longest (accept : Char → Bool) (run rest : List Char) : Prop where
  nonempty : run ≠ []
  inside : ∀ c ∈ run, accept c = true
  ends : ∀ next ∈ rest.head?, accept next = false

/-- The token that begins at a character that is not blank, with the characters behind it. -/
inductive Token.Maximal : Token → List Char → Prop
  | reserved {word rest : List Char} {kind : Kind} (run : Longest Alphabet.isWordPart word rest)
      (reserved : (String.ofList word, kind) ∈ Kind.reserved) :
      Token.Maximal ⟨kind, String.ofList word⟩ rest
  | identifier {word rest : List Char} (run : Longest Alphabet.isWordPart word rest)
      (free : ∀ entry ∈ Kind.reserved, entry.1 ≠ String.ofList word) :
      Token.Maximal ⟨.identifier, String.ofList word⟩ rest
  | number {digits rest : List Char} (run : Longest Char.isDigit digits rest) :
      Token.Maximal ⟨.integer, String.ofList digits⟩ rest
  | equals {rest : List Char} : Token.Maximal ⟨.equals, "=="⟩ rest
  | notEquals {rest : List Char} : Token.Maximal ⟨.notEquals, "!="⟩ rest
  | symbol {c : Char} {kind : Kind} {rest : List Char} (symbol : Kind.ofSymbol? c = some kind)
      (alone : c = '=' ∨ c = '!' → rest.head? ≠ some '=') :
      Token.Maximal ⟨kind, c.toString⟩ rest
  | illegal {c : Char} {rest : List Char} (blank : Alphabet.isBlank c = false)
      (word : Alphabet.isWordPart c = false) (digit : c.isDigit = false)
      (symbol : Kind.ofSymbol? c = none) : Token.Maximal ⟨.illegal, c.toString⟩ rest

/-- The tokens of some characters, each as long as it can be. -/
inductive Munched : List Char → List Token → Prop
  | nil : Munched [] []
  | blank {c : Char} {rest : List Char} {tokens : List Token} (blank : Alphabet.isBlank c = true)
      (behind : Munched rest tokens) : Munched (c :: rest) tokens
  | token {token : Token} {rest : List Char} {tokens : List Token} (maximal : token.Maximal rest)
      (behind : Munched rest tokens) : Munched (token.literal.toList ++ rest) (token :: tokens)

namespace Kind

theorem ofWord_of_mem {word : String} {kind : Kind} (among : (word, kind) ∈ reserved) :
    ofWord word = kind := by
  have each : ∀ entry ∈ reserved, ofWord entry.1 = entry.2 := by decide
  exact each (word, kind) among

theorem ofWord_of_free {word : String} (free : ∀ entry ∈ reserved, entry.1 ≠ word) :
    ofWord word = .identifier := by
  rcases ofWord_eq word with named | among
  · exact named
  · exact (free _ among rfl).elim

/-- A symbol is in none of the three classes. -/
theorem outside_of_ofSymbol? {c : Char} {kind : Kind} (symbol : ofSymbol? c = some kind) :
    Alphabet.isBlank c = false ∧ Alphabet.isWordPart c = false ∧ c.isDigit = false := by
  revert symbol
  unfold ofSymbol?
  split <;> rintro ⟨⟩ <;> decide

/-- Of the symbols only two are drawn together with what follows. -/
theorem joins_ofSymbol?_iff {c next : Char} {kind : Kind} (symbol : ofSymbol? c = some kind) :
    kind.joins next = true ↔ (c = '=' ∨ c = '!') ∧ next = '=' := by
  revert symbol
  unfold ofSymbol?
  split <;> rintro ⟨⟩ <;> simp [joins]

end Kind

namespace Token

variable {token : Token} {rest : List Char}

theorem Maximal.spelled (maximal : token.Maximal rest) : token.Spelled := by
  cases maximal with
  | reserved run reserved =>
    rw [← Kind.ofWord_of_mem reserved]
    exact .word run.nonempty run.inside
  | identifier run free =>
    rw [← Kind.ofWord_of_free free]
    exact .word run.nonempty run.inside
  | number run => exact .number run.nonempty run.inside
  | equals => exact .pair (c := '=') rfl
  | notEquals => exact .pair (c := '!') rfl
  | @symbol c kind _ symbol =>
    obtain ⟨blank, word, digit⟩ := Kind.outside_of_ofSymbol? symbol
    have spelled := Spelled.symbol blank word digit
    rwa [symbol] at spelled
  | @illegal c _ blank word digit symbol =>
    have spelled := Spelled.symbol blank word digit
    rwa [symbol] at spelled

/-- Nothing that follows a longest token is drawn into it. -/
theorem Maximal.ends (maximal : token.Maximal rest) :
    ∀ next ∈ rest.head?, token.kind.joins next = false := by
  intro next follows
  cases maximal with
  | reserved run reserved =>
    rw [← Kind.ofWord_of_mem reserved, Kind.joins_ofWord]
    exact run.ends next follows
  | identifier run => exact run.ends next follows
  | number run => exact run.ends next follows
  | equals => rfl
  | notEquals => rfl
  | symbol symbol alone =>
    by_contra joined
    obtain ⟨pairs, rfl⟩ := (Kind.joins_ofSymbol?_iff symbol).mp (by simpa using joined)
    exact alone pairs follows
  | illegal => rfl

/-- A longest word is one token, reserved or not. -/
theorem maximal_word {word : List Char} (run : Longest Alphabet.isWordPart word rest) :
    Token.Maximal ⟨.ofWord (String.ofList word), String.ofList word⟩ rest := by
  by_cases free : ∀ entry ∈ Kind.reserved, entry.1 ≠ String.ofList word
  · rw [Kind.ofWord_of_free free]
    exact .identifier run free
  · push Not at free
    obtain ⟨⟨_, kind⟩, among, rfl⟩ := free
    rw [Kind.ofWord_of_mem among]
    exact .reserved run among

namespace Spelled

theorem literal_ne_nil (spelled : token.Spelled) : token.literal.toList ≠ [] := by
  cases spelled with
  | word nonempty => simpa using nonempty
  | number nonempty => simpa using nonempty
  | symbol => simp [Char.toString]
  | pair => simp

theorem kind_ne_endOfInput (spelled : token.Spelled) : token.kind ≠ .endOfInput := by
  cases spelled with
  | word => exact Kind.ofWord_ne_endOfInput _
  | number => exact nofun
  | symbol => exact Kind.ofSymbol?_ne_endOfInput _
  | pair pairs => exact Kind.withEquals?_ne_endOfInput pairs

theorem not_isBlank (spelled : token.Spelled) :
    ∀ c ∈ token.literal.toList, Alphabet.isBlank c = false := by
  cases spelled with
  | word _ parts =>
    rw [String.toList_ofList]
    exact fun c among => Alphabet.not_isBlank_of_isWordPart (parts c among)
  | number _ parts =>
    rw [String.toList_ofList]
    exact fun c among => Alphabet.not_isBlank_of_isDigit (parts c among)
  | symbol blank =>
    rw [Char.toString, String.toList_singleton, List.forall_mem_singleton]
    exact blank
  | @pair c kind pairs =>
    revert pairs
    unfold Kind.withEquals?
    split <;> rintro ⟨⟩ <;> simp [Alphabet.isBlank, Char.toString]

end Spelled

end Token

theorem longest_takeWhile {accept : Char → Bool} {c : Char} (accepted : accept c = true)
    (rest : List Char) :
    Longest accept ((c :: rest).takeWhile accept) ((c :: rest).dropWhile accept) where
  nonempty := by simp [accepted]
  inside _ among := List.mem_takeWhile_imp among
  ends next follows := by
    have refused := List.head?_dropWhile_not accept (c :: rest)
    rw [Option.mem_def.mp follows] at refused
    simpa using refused

/-- Some longest token begins at every character that is not blank. -/
theorem exists_maximal {c : Char} (blank : Alphabet.isBlank c = false) (rest : List Char) :
    ∃ (token : Token) (behind : List Char), token.Maximal behind ∧
      c :: rest = token.literal.toList ++ behind := by
  by_cases word : Alphabet.isWordPart c = true
  · have run := longest_takeWhile word rest
    refine ⟨_, _, Token.maximal_word run, ?_⟩
    rw [String.toList_ofList, List.takeWhile_append_dropWhile]
  by_cases digit : c.isDigit = true
  · have run := longest_takeWhile digit rest
    refine ⟨_, _, .number run, ?_⟩
    rw [String.toList_ofList, List.takeWhile_append_dropWhile]
  rw [Bool.not_eq_true] at word digit
  cases symbol : Kind.ofSymbol? c with
  | none => exact ⟨_, rest, .illegal blank word digit symbol, by simp [Char.toString]⟩
  | some kind =>
    by_cases drawn : (c = '=' ∨ c = '!') ∧ rest.head? = some '='
    · obtain ⟨pairs, follows⟩ := drawn
      obtain ⟨rest, rfl⟩ := List.head?_eq_some_iff.mp follows
      rcases pairs with rfl | rfl
      · exact ⟨_, rest, .equals, rfl⟩
      · exact ⟨_, rest, .notEquals, rfl⟩
    · rw [not_and] at drawn
      exact ⟨_, rest, .symbol symbol drawn, by simp [Char.toString]⟩

namespace Munched

variable {characters : List Char} {tokens : List Token}

/-- The tokens are those that the characters are read as. -/
theorem lexemes_eq (munched : Munched characters tokens) : lexemes characters = tokens := by
  induction munched with
  | nil => exact lexemes_nil
  | blank blank _ ih => rw [lexemes_blank blank, ih]
  | token maximal _ ih => rw [maximal.spelled.lexemes_append maximal.ends, ih]

/-- Every character that is not blank is in one token, in the same order. -/
theorem literals_eq (munched : Munched characters tokens) :
    tokens.flatMap (fun token => token.literal.toList) =
      characters.filter fun c => !Alphabet.isBlank c := by
  induction munched with
  | nil => rfl
  | blank blank _ ih => rw [ih, List.filter_cons_of_neg (by simp [blank])]
  | @token token rest tokens maximal _ ih =>
    have whole : token.literal.toList.filter (fun c => !Alphabet.isBlank c) =
        token.literal.toList := by
      apply List.filter_eq_self.mpr
      intro c among
      rw [maximal.spelled.not_isBlank c among]
      rfl
    rw [List.flatMap_cons, ih, List.filter_append, whole]

theorem spelled (munched : Munched characters tokens) : ∀ token ∈ tokens, token.Spelled := by
  induction munched with
  | nil => exact List.forall_mem_nil _
  | blank _ _ ih => exact ih
  | token maximal _ ih => exact List.forall_mem_cons.mpr ⟨maximal.spelled, ih⟩

theorem length_le (munched : Munched characters tokens) : tokens.length ≤ characters.length := by
  induction munched with
  | nil => exact Nat.le_refl 0
  | blank _ _ ih =>
    rw [List.length_cons]
    omega
  | token maximal _ ih =>
    have positive := List.length_pos_iff.mpr maximal.spelled.literal_ne_nil
    rw [List.length_cons, List.length_append]
    omega

end Munched

theorem exists_munched (characters : List Char) : ∃ tokens, Munched characters tokens := by
  induction size : characters.length using Nat.strong_induction_on generalizing characters with
  | _ size ih =>
    subst size
    cases characters with
    | nil => exact ⟨[], .nil⟩
    | cons c rest =>
      cases blank : Alphabet.isBlank c with
      | true =>
        obtain ⟨tokens, behind⟩ := ih rest.length (Nat.lt_succ_self _) rest rfl
        exact ⟨tokens, .blank blank behind⟩
      | false =>
        obtain ⟨token, rest, maximal, split⟩ := exists_maximal blank rest
        have positive := List.length_pos_iff.mpr maximal.spelled.literal_ne_nil
        rw [split, List.length_append] at ih
        obtain ⟨tokens, behind⟩ := ih rest.length (by omega) rest rfl
        rw [split]
        exact ⟨token :: tokens, .token maximal behind⟩

theorem munched_iff {characters : List Char} {tokens : List Token} :
    Munched characters tokens ↔ lexemes characters = tokens := by
  constructor
  · exact Munched.lexemes_eq
  · rintro rfl
    obtain ⟨tokens, munched⟩ := exists_munched characters
    rwa [munched.lexemes_eq]

theorem tokenize_eq (text : String) : tokenize text = lexemes text.toList ++ [.endOfInput] := by
  rw [tokenize, Scanner.tokens_ofString]

/-- A text has exactly one list of longest tokens, and it is scanned to this list with one end of
input behind it. The tokens hold the characters that are not blank, each one at least one. -/
theorem tokenize_munched (text : String) :
    ∃ tokens, Munched text.toList tokens ∧
      (∀ others, Munched text.toList others → others = tokens) ∧
      tokenize text = tokens ++ [.endOfInput] ∧
      (∀ token ∈ tokens, token.kind ≠ .endOfInput ∧ token.literal ≠ "") ∧
      String.join ((tokenize text).map Token.literal) =
        String.ofList (text.toList.filter fun c => !Alphabet.isBlank c) ∧
      (tokenize text).length ≤ text.length + 1 := by
  obtain ⟨tokens, munched⟩ := exists_munched text.toList
  have scanned : tokenize text = tokens ++ [.endOfInput] := by
    rw [tokenize_eq, munched.lexemes_eq]
  refine ⟨tokens, munched, fun others same => same.lexemes_eq.symm.trans munched.lexemes_eq, scanned,
    ?_, ?_, ?_⟩
  · intro token among
    have spelled := munched.spelled token among
    refine ⟨spelled.kind_ne_endOfInput, fun empty => spelled.literal_ne_nil ?_⟩
    rw [empty]
    rfl
  · apply String.toList_injective
    rw [scanned, String.toList_join, String.toList_ofList, ← munched.literals_eq, List.flatMap_map,
      List.flatMap_append]
    exact List.append_nil _
  · have shorter := munched.length_le
    rw [scanned, List.length_append, List.length_singleton]
    rw [String.length_toList] at shorter
    omega

/-- A letter beyond ASCII belongs to no word. -/
example : Munched "if==é12_".toList [⟨.ifWord, "if"⟩, ⟨.equals, "=="⟩, ⟨.illegal, "é"⟩,
    ⟨.integer, "12"⟩, ⟨.identifier, "_"⟩] :=
  munched_iff.mpr (by decide +kernel)

end ScriptReader
