/-! # Character classes

The classes that decide where a token begins and ends. All of them lie within ASCII: a character
beyond it is never blank and never part of a word or number.
-/

namespace ScriptReader.Alphabet

/-- Space, tab, line feed and carriage return separate tokens and belong to none. -/
def isBlank (c : Char) : Bool := c == ' ' || c == '\t' || c == '\n' || c == '\r'

/-- Words are runs of ASCII letters and underscores; a digit is not part of a word. -/
def isWordPart (c : Char) : Bool := c.isAlpha || c == '_'

end ScriptReader.Alphabet
