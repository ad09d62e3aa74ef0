/-! # Lines

A text in bytes is cut behind every line feed; what follows the last line feed is a line too, unless
it is empty. A line is decoded whole, and its content is the text before the line breaks at its end.
-/

namespace ScriptReader

/-- The lines of a text, each with its line feed. -/
def splitLines : List UInt8 → List (List UInt8)
  | [] => []
  | byte :: rest =>
    if byte = '\n'.toUInt8 then [byte] :: splitLines rest
    else
      match splitLines rest with
      | [] => [[byte]]
      | line :: lines => (byte :: line) :: lines

/-- The text that bytes spell in UTF-8. -/
def decode? (bytes : List UInt8) : Option String := String.fromUTF8? bytes.toByteArray

/-- A text without the carriage returns and line feeds at its end. -/
def trimBreaks (text : String) : String :=
  .ofList (text.toList.reverse.dropWhile fun c => c == '\n' || c == '\r').reverse

end ScriptReader
