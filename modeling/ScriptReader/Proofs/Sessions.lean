import ScriptReader.Proofs.Lines
import ScriptReader.Proofs.Seams
import ScriptReader.Shell

/-! # What a session writes

A session answers line by line, with scanners that have read the lines before. None of this shows:
what it writes for a line is what the line alone spells. The line breaks that are taken off its end
decide whether it quits, but are blanks to the scanner. What follows a line that quits, or one that
is not UTF-8, is never looked at.
-/

namespace ScriptReader

/-- Only carriage returns and line feeds are taken off a line. -/
theorem exists_breaks (text : String) : ∃ breaks : List Char,
    text.toList = (trimBreaks text).toList ++ breaks ∧ ∀ c ∈ breaks, c = '\n' ∨ c = '\r' := by
  refine ⟨(text.toList.reverse.takeWhile fun c => c == '\n' || c == '\r').reverse, ?_, ?_⟩
  · rw [trimBreaks, String.toList_ofList, ← List.reverse_append, List.takeWhile_append_dropWhile,
      List.reverse_reverse]
  · intro c among
    have taken := List.mem_takeWhile_imp (List.mem_reverse.mp among)
    simpa using taken

theorem lexemes_trimBreaks (text : String) :
    lexemes (trimBreaks text).toList = lexemes text.toList := by
  obtain ⟨breaks, split, each⟩ := exists_breaks text
  rw [split, lexemes_append_blanks]
  intro c among
  rw [Alphabet.isBlank_iff]
  rcases each c among with feed | back
  · exact .inr (.inr (.inl feed))
  · exact .inr (.inr (.inr back))

namespace Shell

/-- What is written for a line: its tokens up to the end of input, one on each line, or the report of
its diagnostics, or else its program, unless it is empty. -/
def response (mode : Mode) (line : String) : String :=
  match mode with
  | .tokens =>
    let tokens := (tokenize line).takeWhile fun token => token.kind ≠ .endOfInput
    String.join (tokens.map fun token => token.text ++ "\n")
  | .tree =>
    let (program, diagnostics) := parseText line
    if diagnostics ≠ [] then report diagnostics
    else if program.statements = [] then ""
    else program.text ++ "\n"

/-- What is written for some lines up to the first one that quits: a prompt and the response for each
of them, and one more prompt. -/
def spoken (mode : Mode) (lines : List String) : String :=
  let heard := lines.takeWhile fun line => trimBreaks line ≠ quitWord
  String.join (heard.map fun line => prompt ++ response mode line) ++ prompt

variable {mode : Mode}

theorem spoken_cons_of_quit {line : String} (quits : trimBreaks line = quitWord)
    (lines : List String) : spoken mode (line :: lines) = prompt := by
  rw [spoken, List.takeWhile_cons_of_neg (by simpa using quits)]
  rfl

theorem spoken_cons_of_ne {line : String} (goes : trimBreaks line ≠ quitWord)
    (lines : List String) :
    spoken mode (line :: lines) = prompt ++ response mode line ++ spoken mode lines := by
  rw [spoken, List.takeWhile_cons_of_pos (by simpa using goes), List.map_cons, String.join_cons,
    String.append_assoc]
  rfl

/-- Whatever the pool has been through, a line is answered by itself. -/
theorem answer_acquire (mode : Mode) (pool : Pool) (line : String) :
    answer mode (pool.acquire (trimBreaks line)).1 = response mode line := by
  rw [Pool.acquire_fst]
  cases mode with
  | tokens =>
    have plain : Plain (lexemes line.toList) := TokenStream.plain_drain line.toList
    have heard : (tokenize line).takeWhile (fun token => token.kind ≠ .endOfInput) =
        lexemes line.toList := by
      rw [tokenize_eq, List.takeWhile_append_of_pos fun token among =>
        decide_eq_true (plain token among)]
      exact List.append_nil _
    rw [response, heard, ← lexemes_trimBreaks, ← Scanner.tokens_ofString]
    rfl
  | tree =>
    have same : parse (Scanner.ofString (trimBreaks line)) = parseText line := by
      rw [parseText_eq_lexemes line, ← lexemes_trimBreaks, ← parseText_eq_lexemes]
      rfl
    rw [response, ← same]
    rfl

/-! ### Line by line -/

theorem session_cons_of_quit {line : List UInt8} {text : String} (spells : decode? line = some text)
    (quits : trimBreaks text = quitWord) (pool : Pool) (rest : List (List UInt8)) :
    session mode pool (line :: rest) = ⟨prompt, false⟩ := by
  rw [session, reply, spells]
  simp only [if_pos quits]

theorem session_cons_of_undecodable {line : List UInt8} (foreign : decode? line = none)
    (pool : Pool) (rest : List (List UInt8)) :
    session mode pool (line :: rest) = ⟨prompt, true⟩ := by
  rw [session, reply, foreign]

/-- A session writes the prompt and the response, and goes on with a pool that nobody can tell from
another. -/
theorem session_cons_of_ne {text : String} (goes : trimBreaks text ≠ quitWord) (pool : Pool)
    (rest : List (List UInt8)) : ∃ left, session mode pool (encode text :: rest) =
      ⟨prompt ++ response mode text ++ (session mode left rest).output,
        (session mode left rest).failed⟩ := by
  refine ⟨(pool.acquire (trimBreaks text)).2.release (pool.acquire (trimBreaks text)).1, ?_⟩
  rw [session, reply, decode?_encode]
  simp only [if_neg goes, answer_acquire]

/-- A session in front of lines that end it at once, whatever pool they find. -/
theorem session_append {behind : List (List UInt8)} {failed : Bool}
    (ends : ∀ pool, session mode pool behind = ⟨prompt, failed⟩) (lines : List String)
    (pool : Pool) : session mode pool (lines.map encode ++ behind) =
      ⟨spoken mode lines, failed && lines.all fun line => trimBreaks line ≠ quitWord⟩ := by
  induction lines generalizing pool with
  | nil =>
    rw [List.map_nil, List.nil_append, ends, List.all_nil, Bool.and_true]
    rfl
  | cons line lines ih =>
    rw [List.map_cons, List.cons_append, List.all_cons]
    by_cases quits : trimBreaks line = quitWord
    · rw [session_cons_of_quit (decode?_encode line) quits, spoken_cons_of_quit quits]
      simp [quits]
    · obtain ⟨left, continued⟩ := session_cons_of_ne quits pool (lines.map encode ++ behind)
      rw [continued, ih, spoken_cons_of_ne quits]
      simp [quits]

/-- A session over a text writes what its lines spell up to the first one that quits. Bytes behind
the lines of a text matter only if none of these quits. Then a line that is not UTF-8 makes the
session fail at once and a line that quits ends it, whatever other bytes follow. -/
theorem run_lines (mode : Mode) (text : String) :
    (∃ lines : List String, Cut '\n' text.toList (lines.map String.toList)) ∧
    ∀ lines : List String, Cut '\n' text.toList (lines.map String.toList) →
      run mode (encode text) = ⟨spoken mode lines, false⟩ ∧
      ((∀ last ∈ text.toList.getLast?, last = '\n') →
        ∀ (behind line : List UInt8) (others : List (List UInt8)),
          Cut '\n'.toUInt8 behind (line :: others) →
          (decode? line = none → run mode (encode text ++ behind) =
            ⟨spoken mode lines, lines.all fun line => trimBreaks line ≠ quitWord⟩) ∧
          ∀ content, decode? line = some content → trimBreaks content = quitWord →
            run mode (encode text ++ behind) = ⟨spoken mode lines, false⟩) := by
  refine ⟨exists_lines text, fun lines cut => ?_⟩
  have bytes : Cut '\n'.toUInt8 (encode text) (lines.map encode) := by
    have bytes := cut.encode
    rw [← encode_eq, List.map_map] at bytes
    convert bytes using 2
    funext line
    exact encode_eq line
  constructor
  · have ends (pool : Pool) : session mode pool [] = ⟨prompt, false⟩ := rfl
    rw [run, bytes.splitLines_eq, ← List.append_nil (lines.map encode)]
    exact session_append ends lines {}
  · intro closed behind line others cut'
    have whole := (bytes.append (getLast?_encode closed) cut').splitLines_eq
    rw [run, whole]
    constructor
    · intro foreign
      exact session_append (fun pool => session_cons_of_undecodable foreign pool others) lines {}
    · intro content spells quits
      exact session_append (fun pool => session_cons_of_quit spells quits pool others) lines {}

/-- A line with a byte that begins no character makes the session fail, and a line that quits ends it
well, although the other one follows each of them. -/
theorem run_lines_either :
    run .tokens (encode "a\n" ++ [0xFF, 10, 81, 85, 73, 84, 13, 10]) =
        ⟨spoken .tokens ["a\n"], true⟩ ∧
      run .tokens (encode "a\n" ++ [81, 85, 73, 84, 13, 10, 0xFF]) =
        ⟨spoken .tokens ["a\n"], false⟩ := by
  have cut : Cut '\n' "a\n".toList (["a\n"].map String.toList) :=
    .ended (show '\n' ∉ ['a'] by decide) .nil
  have closed : ∀ last ∈ "a\n".toList.getLast?, last = '\n' := by simp
  have foreign : 10 ∉ [(0xFF : UInt8)] := by simp
  have quits : 10 ∉ [(81 : UInt8), 85, 73, 84, 13] := by simp
  have after := ((run_lines .tokens "a\n").2 _ cut).2 closed
  constructor
  · have behind := Cut.ended foreign (.ended quits .nil)
    exact (after _ _ _ behind).1 (by decide)
  · have behind := Cut.ended quits (.unended (List.cons_ne_nil _ _) foreign)
    exact (after _ _ _ behind).2 "QUIT\r\n" (by decide) (by decide)

end Shell

end ScriptReader
