import Mathlib.Data.List.TakeWhile
import ScriptReader.Proofs.Characters

/-! # Tokens and their spelling

Every token of a text is a word, a number, a symbol or a pair of symbols, and its literal is how it
is spelled. Conversely a literal is read back to its token whatever follows, unless the next
character would be drawn into the token.
-/

namespace ScriptReader

open TokenStream

/-- The tokens that a scanner makes. -/
inductive Token.Spelled : Token → Prop
  | word {word : List Char} (nonempty : word ≠ [])
      (parts : ∀ c ∈ word, Alphabet.isWordPart c = true) :
      Token.Spelled ⟨.ofWord (String.ofList word), String.ofList word⟩
  | number {digits : List Char} (nonempty : digits ≠ [])
      (parts : ∀ c ∈ digits, c.isDigit = true) :
      Token.Spelled ⟨.integer, String.ofList digits⟩
  | symbol {c : Char} (blank : Alphabet.isBlank c = false) (word : Alphabet.isWordPart c = false)
      (digit : c.isDigit = false) :
      Token.Spelled ⟨(Kind.ofSymbol? c).getD .illegal, c.toString⟩
  | pair {c : Char} {kind : Kind} (pairs : Kind.withEquals? c = some kind) :
      Token.Spelled ⟨kind, c.toString ++ "="⟩

/-- Whether a character right behind a token of this kind is drawn into it. -/
def Kind.joins : Kind → Char → Bool
  | .identifier, next => Alphabet.isWordPart next
  | .varWord, next => Alphabet.isWordPart next
  | .fnWord, next => Alphabet.isWordPart next
  | .returnWord, next => Alphabet.isWordPart next
  | .ifWord, next => Alphabet.isWordPart next
  | .elseWord, next => Alphabet.isWordPart next
  | .trueWord, next => Alphabet.isWordPart next
  | .falseWord, next => Alphabet.isWordPart next
  | .integer, next => next.isDigit
  | .assign, next => next == '='
  | .not, next => next == '='
  | _, _ => false

/-- The literal of every token of a kind, for the kinds that have only one. -/
def Kind.spelling? : Kind → Option String
  | .endOfInput => none
  | .illegal => none
  | .identifier => none
  | .integer => none
  | .assign => some "="
  | .equals => some "=="
  | .not => some "!"
  | .notEquals => some "!="
  | .plus => some "+"
  | .minus => some "-"
  | .star => some "*"
  | .slash => some "/"
  | .caret => some "^"
  | .less => some "<"
  | .greater => some ">"
  | .comma => some ","
  | .semicolon => some ";"
  | .openParen => some "("
  | .closeParen => some ")"
  | .openCurly => some "\x7b"
  | .closeCurly => some "\x7d"
  | .varWord => some "var"
  | .fnWord => some "fn"
  | .returnWord => some "return"
  | .ifWord => some "if"
  | .elseWord => some "else"
  | .trueWord => some "true"
  | .falseWord => some "false"

namespace Kind

/-- A word is an identifier or stands in the list of reserved words. -/
theorem ofWord_eq (word : String) :
    ofWord word = .identifier ∨ (word, ofWord word) ∈ reserved := by
  unfold ofWord
  cases found : reserved.lookup word with
  | none => exact .inl rfl
  | some kind =>
    obtain ⟨before, after, split, -⟩ := List.lookup_eq_some_iff.mp found
    exact .inr (by simp [split])

theorem joins_ofWord (word : String) (next : Char) :
    (ofWord word).joins next = Alphabet.isWordPart next := by
  have reserved : ∀ entry ∈ reserved, entry.2.joins = Alphabet.isWordPart := by
    simp only [reserved, List.forall_mem_cons]
    exact ⟨rfl, rfl, rfl, rfl, rfl, rfl, rfl, List.forall_mem_nil _⟩
  rcases ofWord_eq word with named | among
  · rw [named]
    rfl
  · exact congrFun (reserved _ among) next

/-- Only a symbol that may begin a pair joins the `=` behind it. -/
theorem joins_ofSymbol? {c : Char} {pair : Kind} (pairs : withEquals? c = some pair) :
    ((ofSymbol? c).getD .illegal).joins '=' = true := by
  revert pairs
  unfold withEquals?
  split
  · exact fun _ => rfl
  · exact fun _ => rfl
  · nofun

end Kind

theorem lexemes_eq_cons {characters rest : List Char} {token : Token}
    (taken : lexeme characters = (token, rest)) (present : token.kind ≠ .endOfInput) :
    lexemes characters = token :: lexemes rest := by
  have first : TokenStream.next characters = (token, rest) := taken
  rw [lexemes, drain, first, if_neg present]
  rfl

@[simp] theorem lexemes_nil : lexemes [] = [] := by
  rw [lexemes, drain, if_pos]
  rfl

theorem lexemes_blank {c : Char} (blank : Alphabet.isBlank c = true) (rest : List Char) :
    lexemes (c :: rest) = lexemes rest := by
  have same : lexeme (c :: rest) = lexeme rest := by
    rw [lexeme, lexeme, List.dropWhile_cons, if_pos blank]
  have same : TokenStream.next (c :: rest) = TokenStream.next rest := same
  rw [lexemes, lexemes, drain, drain.eq_1 rest, same]

/-- A run of a class ends where the first character outside of it follows. -/
theorem takeWhile_dropWhile_append {accept : Char → Bool} {run rest : List Char}
    (parts : ∀ c ∈ run, accept c = true) (ends : ∀ next ∈ rest.head?, accept next = false) :
    (run ++ rest).takeWhile accept = run ∧ (run ++ rest).dropWhile accept = rest := by
  have stop : rest.takeWhile accept = [] ∧ rest.dropWhile accept = rest := by
    cases rest with
    | nil => exact ⟨rfl, rfl⟩
    | cons next rest =>
      have refused := ends next rfl
      rw [List.takeWhile_cons, List.dropWhile_cons, refused]
      exact ⟨rfl, rfl⟩
  rw [List.takeWhile_append_of_pos parts, List.dropWhile_append_of_pos parts, stop.1, stop.2]
  exact ⟨List.append_nil run, rfl⟩

namespace Alphabet

variable {c : Char}

theorem not_isBlank_of_isWordPart (part : isWordPart c = true) : isBlank c = false := by
  by_contra blank
  rw [Bool.not_eq_false, isBlank_iff] at blank
  rcases blank with rfl | rfl | rfl | rfl <;> exact absurd part (by decide)

theorem not_isBlank_of_isDigit (digit : c.isDigit = true) : isBlank c = false := by
  by_contra blank
  rw [Bool.not_eq_false, isBlank_iff] at blank
  rcases blank with rfl | rfl | rfl | rfl <;> exact absurd digit (by decide)

theorem not_isWordPart_of_isDigit (digit : c.isDigit = true) : isWordPart c = false := by
  by_contra part
  rw [Bool.not_eq_false, isWordPart_iff] at part
  have most : c.val ≤ '9'.val := by
    simp only [Char.isDigit, Bool.and_eq_true, decide_eq_true_eq] at digit
    exact digit.2
  rcases part with ⟨least, -⟩ | ⟨least, -⟩ | rfl
  · exact absurd (UInt32.le_trans least most) (by decide)
  · exact absurd (UInt32.le_trans least most) (by decide)
  · exact absurd digit (by decide)

end Alphabet

section Reading

variable {rest : List Char}

theorem lexemes_word {word : List Char} (nonempty : word ≠ [])
    (parts : ∀ c ∈ word, Alphabet.isWordPart c = true)
    (ends : ∀ next ∈ rest.head?, Alphabet.isWordPart next = false) :
    lexemes (word ++ rest) =
      ⟨.ofWord (String.ofList word), String.ofList word⟩ :: lexemes rest := by
  refine lexemes_eq_cons ?_ (Kind.ofWord_ne_endOfInput _)
  obtain ⟨run, left⟩ := takeWhile_dropWhile_append parts ends
  obtain ⟨c, word, rfl⟩ := List.exists_cons_of_ne_nil nonempty
  have part := parts c (.head _)
  rw [List.cons_append] at run left
  rw [List.dropWhile_cons, if_pos part] at left
  rw [lexeme, List.cons_append, List.dropWhile_cons, Alphabet.not_isBlank_of_isWordPart part]
  simp only [Bool.false_eq_true, if_false, part, if_true, run, left]

theorem lexemes_number {digits : List Char} (nonempty : digits ≠ [])
    (parts : ∀ c ∈ digits, c.isDigit = true)
    (ends : ∀ next ∈ rest.head?, next.isDigit = false) :
    lexemes (digits ++ rest) = ⟨.integer, String.ofList digits⟩ :: lexemes rest := by
  refine lexemes_eq_cons ?_ nofun
  obtain ⟨run, left⟩ := takeWhile_dropWhile_append parts ends
  obtain ⟨c, digits, rfl⟩ := List.exists_cons_of_ne_nil nonempty
  have digit := parts c (.head _)
  rw [List.cons_append] at run left
  rw [List.dropWhile_cons, if_pos digit] at left
  rw [lexeme, List.cons_append, List.dropWhile_cons, Alphabet.not_isBlank_of_isDigit digit]
  simp only [Bool.false_eq_true, if_false, Alphabet.not_isWordPart_of_isDigit digit, digit,
    if_true, run, left]

theorem lexemes_symbol {c : Char} (blank : Alphabet.isBlank c = false)
    (word : Alphabet.isWordPart c = false) (digit : c.isDigit = false)
    (alone : Kind.withEquals? c = none ∨ rest.head? ≠ some '=') :
    lexemes (c :: rest) = ⟨(Kind.ofSymbol? c).getD .illegal, c.toString⟩ :: lexemes rest := by
  refine lexemes_eq_cons ?_ (Kind.ofSymbol?_ne_endOfInput c)
  rw [lexeme, List.dropWhile_cons, blank]
  simp only [Bool.false_eq_true, if_false, word, digit]
  rw [symbolAt]
  rcases alone with alone | alone
  · rw [alone]
  · split
    · exact if_neg alone
    · rfl

theorem lexemes_pair {c : Char} {kind : Kind} (pairs : Kind.withEquals? c = some kind) :
    lexemes (c :: '=' :: rest) = ⟨kind, c.toString ++ "="⟩ :: lexemes rest := by
  refine lexemes_eq_cons ?_ (Kind.withEquals?_ne_endOfInput pairs)
  have outside :
      Alphabet.isBlank c = false ∧ Alphabet.isWordPart c = false ∧ c.isDigit = false := by
    revert pairs
    unfold Kind.withEquals?
    split
    · exact fun _ => by decide
    · exact fun _ => by decide
    · nofun
  obtain ⟨blank, word, digit⟩ := outside
  rw [lexeme, List.dropWhile_cons, blank]
  simp only [Bool.false_eq_true, if_false, word, digit]
  rw [symbolAt, pairs]
  rfl

end Reading

namespace Token.Spelled

variable {token : Token} {rest : List Char}

/-- Where nothing behind it is drawn in, the literal of a token is read as the token. -/
theorem lexemes_append (spelled : token.Spelled)
    (ends : ∀ next ∈ rest.head?, token.kind.joins next = false) :
    lexemes (token.literal.toList ++ rest) = token :: lexemes rest := by
  cases spelled with
  | word nonempty parts =>
    simp only [Kind.joins_ofWord] at ends
    rw [String.toList_ofList]
    exact lexemes_word nonempty parts ends
  | number nonempty parts =>
    rw [String.toList_ofList]
    exact lexemes_number nonempty parts ends
  | @symbol c blank word digit =>
    rw [Char.toString, String.toList_singleton]
    refine lexemes_symbol blank word digit ?_
    by_contra joined
    rw [not_or, not_not] at joined
    obtain ⟨pair, pairs⟩ := Option.ne_none_iff_exists'.mp joined.1
    have drawn := ends '=' joined.2
    rw [Kind.joins_ofSymbol? pairs] at drawn
    cases drawn
  | @pair c kind pairs =>
    rw [String.toList_append, Char.toString, String.toList_singleton]
    exact lexemes_pair pairs

theorem literal_eq (spelled : token.Spelled) : ∀ literal ∈ token.kind.spelling?,
    token.literal = literal := by
  cases spelled with
  | @word word nonempty parts =>
    dsimp only
    rcases Kind.ofWord_eq (String.ofList word) with named | among
    · rw [named]
      nofun
    · have fixed : ∀ entry ∈ Kind.reserved, entry.2.spelling? = some entry.1 := by decide
      intro literal found
      rw [fixed _ among] at found
      exact Option.some.inj found
  | number => nofun
  | @symbol c =>
    unfold Kind.ofSymbol?
    split <;> rintro literal ⟨⟩ <;> rfl
  | @pair c kind pairs =>
    revert pairs
    unfold Kind.withEquals?
    split <;> rintro ⟨⟩ literal ⟨⟩ <;> rfl

end Token.Spelled

theorem spelled_symbolAt {c : Char} (blank : Alphabet.isBlank c = false)
    (word : Alphabet.isWordPart c = false) (digit : c.isDigit = false) (rest : List Char) :
    (symbolAt c rest).1.Spelled := by
  unfold symbolAt
  split
  · next pairs =>
    split
    · exact .pair pairs
    · exact .symbol blank word digit
  · exact .symbol blank word digit

/-- The next token of some characters is spelled by them, unless they are at an end. -/
theorem spelled_lexeme (characters : List Char)
    (present : (lexeme characters).1.kind ≠ .endOfInput) : (lexeme characters).1.Spelled := by
  unfold lexeme at present ⊢
  split at present
  · exact (present rfl).elim
  · next c rest found =>
    have blank : Alphabet.isBlank c = false := by
      have refused := List.head?_dropWhile_not Alphabet.isBlank characters
      rw [found] at refused
      simpa using refused
    dsimp only
    split
    · next part =>
      refine .word ?_ fun c among => List.mem_takeWhile_imp among
      simp [part]
    · next outside =>
      split
      · next digit =>
        refine .number ?_ fun c among => List.mem_takeWhile_imp among
        simp [digit]
      · next other => exact spelled_symbolAt blank (by simpa using outside) (by simpa using other) _

/-- Every token that characters spell is spelled by its literal. -/
theorem spelled_of_mem_lexemes {characters : List Char} :
    ∀ token ∈ lexemes characters, token.Spelled := by
  unfold lexemes
  fun_induction drain characters with
  | case1 => exact List.forall_mem_nil _
  | case2 characters present ih =>
    exact List.forall_mem_cons.mpr ⟨spelled_lexeme characters present, ih⟩

/-- A text is scanned character by character. -/
theorem Scanner.tokens_ofString (text : String) :
    (ofString text).tokens = lexemes text.toList := by
  rw [ofString_eq_facing]
  exact (alike_facing [] text.toList).drain_eq

/-- A text is parsed like the list of the tokens that its characters spell. -/
theorem parseText_eq_lexemes (text : String) : parseText text = parse (lexemes text.toList) := by
  rw [parseText_eq, Scanner.tokens_ofString]

end ScriptReader
