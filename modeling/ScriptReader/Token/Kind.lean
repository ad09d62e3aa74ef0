/-! # Token kinds

The closed set of lexical kinds, the names under which they appear in diagnostics and listings,
and the reserved words. A kind says how the grammar treats a token; the text of the token is kept
apart from it.
-/

namespace ScriptReader

inductive Kind where
  | endOfInput
  | illegal
  | identifier
  | integer
  | assign
  | equals
  | not
  | notEquals
  | plus
  | minus
  | star
  | slash
  | caret
  | less
  | greater
  | comma
  | semicolon
  | openParen
  | closeParen
  | openCurly
  | closeCurly
  | varWord
  | fnWord
  | returnWord
  | ifWord
  | elseWord
  | trueWord
  | falseWord
deriving DecidableEq, Repr

namespace Kind

/-- Every kind once, in declaration order. -/
def all : List Kind :=
  [.endOfInput, .illegal, .identifier, .integer, .assign, .equals, .not, .notEquals, .plus, .minus,
    .star, .slash, .caret, .less, .greater, .comma, .semicolon, .openParen, .closeParen, .openCurly,
    .closeCurly, .varWord, .fnWord, .returnWord, .ifWord, .elseWord, .trueWord, .falseWord]

/-- The name a kind goes by in messages and token listings. -/
def name : Kind → String
  | .endOfInput => "EOF"
  | .illegal => "Illegal"
  | .identifier => "Identifier"
  | .integer => "Integer"
  | .assign => "Assign"
  | .equals => "Equals"
  | .not => "Not"
  | .notEquals => "NotEquals"
  | .plus => "Plus"
  | .minus => "Minus"
  | .star => "Star"
  | .slash => "Slash"
  | .caret => "Caret"
  | .less => "Less"
  | .greater => "Greater"
  | .comma => "Comma"
  | .semicolon => "Semicolon"
  | .openParen => "OpenParen"
  | .closeParen => "CloseParen"
  | .openCurly => "OpenCurly"
  | .closeCurly => "CloseCurly"
  | .varWord => "Var"
  | .fnWord => "Fn"
  | .returnWord => "Return"
  | .ifWord => "If"
  | .elseWord => "Else"
  | .trueWord => "True"
  | .falseWord => "False"

/-- The kind of a given name. -/
def ofName? (name : String) : Option Kind := all.find? fun kind => kind.name == name

/-- The words that are not identifiers, each with its kind. -/
def reserved : List (String × Kind) :=
  [("var", .varWord), ("fn", .fnWord), ("return", .returnWord), ("if", .ifWord), ("else", .elseWord),
    ("true", .trueWord), ("false", .falseWord)]

/-- The kind of a word: its reserved kind when the whole word is reserved, in this very case. -/
def ofWord (word : String) : Kind := (reserved.lookup word).getD .identifier

/-- The kind of an operator or punctuation character that stands alone. -/
def ofSymbol? : Char → Option Kind
  | '=' => some .assign
  | '!' => some .not
  | '+' => some .plus
  | '-' => some .minus
  | '*' => some .star
  | '/' => some .slash
  | '^' => some .caret
  | '<' => some .less
  | '>' => some .greater
  | ',' => some .comma
  | ';' => some .semicolon
  | '(' => some .openParen
  | ')' => some .closeParen
  | '{' => some .openCurly
  | '}' => some .closeCurly
  | _ => none

/-- The kind of a symbol together with a `=` directly behind it, where the pair is one operator. -/
def withEquals? : Char → Option Kind
  | '=' => some .equals
  | '!' => some .notEquals
  | _ => none

theorem ofName?_name (kind : Kind) : ofName? kind.name = some kind := by cases kind <;> decide

end Kind

end ScriptReader
