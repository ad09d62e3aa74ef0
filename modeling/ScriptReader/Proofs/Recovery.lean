import ScriptReader.Proofs.Braces
import ScriptReader.Proofs.Viability

/-! # Where reading resumes

A statement that is refused inside its blocks is skipped up to the brace that closes the outermost
one of them, with a semicolon right behind it, and reading resumes there. This holds as long as the
refusal is not noticed behind a closing brace that the statement had already taken: recovery starts
at the token under examination and counts that brace once more.
-/

namespace ScriptReader

/-- The tokens without a semicolon in front. -/
def pastSemicolon (tokens : List Token) : List Token :=
  if (front tokens).kind = .semicolon then tokens.tail else tokens

/-- The refusal was noticed at the lookahead, and the token under examination is a closing brace. -/
def Diagnostic.BehindBrace {σ : Type} (diagnostic : Diagnostic) (after : Parser σ) : Prop :=
  diagnostic.cause.atLookahead = true ∧ after.current.kind = .closeCurly

/-- Where a brace is the one to resume behind, the parser that reports the refusal does so: behind
the brace, unless an `else` follows, and at the end of input where there is no such brace. -/
def Parser.ResumesBehind (p after : Parser (List Token)) (diagnostic : Diagnostic) :
    Option (List Token) → Prop
  | none => (after.record diagnostic).recover.advance = (p.record diagnostic).facing []
  | some behind => (front behind).kind ≠ .elseWord →
    (after.record diagnostic).recover.advance = (p.record diagnostic).facing (pastSemicolon behind)

/-- What happens to a refused statement that leaves blocks open. Its tokens up to the one that is
blamed are split at the brace that opens the outermost block left open. -/
structure Parser.Recovers (tokens : List Token) (p after : Parser (List Token))
    (diagnostic : Diagnostic) (earlier before : List Token) (opening : Token)
    (within rest : List Token) : Prop where
  split : tokens = earlier ++ (before ++ opening :: within ++ rest)
  faces : p = p.facing (before ++ opening :: within ++ rest)
  place : rest.length = diagnostic.onward after
  shut : Opens 0 before
  opens : opening.kind = .openCurly
  left : Opens (after.openBlocks - 1) within
  /-- Reading resumes behind the brace that closes the outermost block. -/
  resumes : ¬ diagnostic.BehindBrace after →
    p.ResumesBehind after diagnostic (behindClosing 1 (within ++ rest))
  /-- A closing brace that the statement had taken already counts once more. -/
  again : diagnostic.BehindBrace after →
    p.ResumesBehind after diagnostic (behindClosing after.openBlocks (after.current :: rest)) ∧
    behindClosing 1 (within ++ rest) =
      (behindClosing after.openBlocks (after.current :: rest)).bind (behindClosing 1)
  /-- So reading resumes too early. -/
  astray : diagnostic.BehindBrace after →
    ∀ early ∈ behindClosing after.openBlocks (after.current :: rest),
      ∀ behind ∈ behindClosing 1 early, (front early).kind ≠ .elseWord →
        (front behind).kind ≠ .elseWord →
          ¬ p.ResumesBehind after diagnostic (behindClosing 1 (within ++ rest))

/-- The second parser stands where a statement of the first one's program begins. -/
inductive Parser.Reaches {σ : Type} [TokenStream σ] (p : Parser σ) : Parser σ → Prop
  | start : Reaches p p
  | statement {q after : Parser σ} {statement : Stmt} (reached : Reaches p q)
      (present : q.current.kind ≠ .endOfInput) (ran : q.statement = .accepted statement after) :
      Reaches p after.advance
  | recovery {q after : Parser σ} {diagnostic : Diagnostic} (reached : Reaches p q)
      (present : q.current.kind ≠ .endOfInput) (ran : q.statement = .rejected diagnostic after) :
      Reaches p (after.record diagnostic).recover.advance

section Skipping

variable {depth : Nat} {token : Token} {tokens rest behind : List Token}

theorem lastSkipped_open (opens : token.kind = .openCurly) (depth : Nat) (rest : List Token) :
    lastSkipped depth (token :: rest) = lastSkipped (depth + 1) rest := by
  rw [lastSkipped, opens]

/-- Inside a block, nothing but a brace or the end of input matters. -/
theorem lastSkipped_flat (flat : token.kind.Flat) (present : token.kind ≠ .endOfInput)
    (inside : 0 < depth) (rest : List Token) :
    lastSkipped depth (token :: rest) = lastSkipped depth rest := by
  have deep : depth ≠ 0 := Nat.ne_of_gt inside
  rw [lastSkipped]
  cases kind : token.kind <;> first | rfl | exact if_neg deep | simp_all [Kind.Flat]

theorem lastSkipped_close (closes : token.kind = .closeCurly) (inside : 0 < depth)
    (rest : List Token) :
    lastSkipped depth (token :: rest) =
      if depth = 1 ∧ (front rest).kind ≠ .elseWord then
        if (front rest).kind = .semicolon then rest else token :: rest
      else lastSkipped (depth - 1) rest := by
  have deep : depth ≠ 0 := Nat.ne_of_gt inside
  rw [lastSkipped, closes]
  exact if_neg deep

/-- Where the outermost block is never closed, everything is skipped. -/
theorem resumed_eq_nil (plain : Plain tokens) (inside : 0 < depth)
    (unclosed : behindClosing depth tokens = none) : resumed depth tokens = [] := by
  suffices skipped : lastSkipped depth tokens = [] by rw [resumed, skipped]; rfl
  induction tokens generalizing depth with
  | nil => rfl
  | cons token rest ih =>
    obtain ⟨present, plain⟩ := plain_cons.mp plain
    rw [behindClosing] at unclosed
    rcases token.kind.brace_cases with kind | kind | flat
    · rw [if_pos kind] at unclosed
      rw [lastSkipped_open kind]
      exact ih plain (Nat.succ_pos depth) unclosed
    · rw [if_neg (by simp [kind]), if_pos kind] at unclosed
      by_cases last : depth ≤ 1
      · rw [if_pos last] at unclosed
        cases unclosed
      · rw [if_neg last] at unclosed
        rw [lastSkipped_close kind inside, if_neg (by omega)]
        exact ih plain (by omega) unclosed
    · rw [if_neg flat.1, if_neg flat.2, if_neg present] at unclosed
      rw [lastSkipped_flat flat present inside]
      exact ih plain inside unclosed

/-- Reading resumes behind the brace that closes the outermost block, unless an `else` follows. -/
theorem resumed_eq_pastSemicolon (inside : 0 < depth)
    (closed : behindClosing depth tokens = some behind) (alone : (front behind).kind ≠ .elseWord) :
    resumed depth tokens = pastSemicolon behind := by
  induction tokens generalizing depth with
  | nil => cases closed
  | cons token rest ih =>
    rw [behindClosing] at closed
    rcases token.kind.brace_cases with kind | kind | flat
    · rw [if_pos kind] at closed
      rw [resumed, lastSkipped_open kind]
      exact ih (Nat.succ_pos depth) closed
    · rw [if_neg (by simp [kind]), if_pos kind] at closed
      rw [resumed, lastSkipped_close kind inside]
      by_cases last : depth ≤ 1
      · rw [if_pos last] at closed
        cases closed
        rw [if_pos ⟨by omega, alone⟩, pastSemicolon]
        split <;> rfl
      · rw [if_neg last] at closed
        rw [if_neg (by omega)]
        exact ih (by omega) closed
    · rw [if_neg flat.1, if_neg flat.2] at closed
      by_cases ended : token.kind = .endOfInput
      · rw [if_pos ended] at closed
        cases closed
      · rw [if_neg ended] at closed
        rw [resumed, lastSkipped_flat flat ended inside]
        exact ih inside closed

end Skipping

/-- The last token taken does not matter to the braces behind it, unless it is a closing one. -/
theorem Halts.behindClosing_blamed {count : Nat} {diagnostic : Diagnostic} {tokens : List Token}
    (halts : Halts count diagnostic tokens) (plain : Plain tokens)
    (fresh : diagnostic.cause.atLookahead = true →
      ∀ last ∈ tokens.getLast?, last.kind ≠ .closeCurly) (rest : List Token) :
    behindClosing count (blamed diagnostic tokens rest) = behindClosing count rest := by
  unfold blamed
  split
  · next late =>
    rcases tokens.eq_nil_or_concat' with rfl | ⟨earlier, last, rfl⟩
    · rfl
    · have present := plain last (by simp)
      rw [window_concat, behindClosing,
        if_neg (halts.last late last (by simp)), if_neg (fresh late last (by simp)),
        if_neg present]
  · rfl

theorem Diagnostic.not_closeCurly_of_not_behindBrace {p : Parser (List Token)} {count : Nat}
    {diagnostic : Diagnostic} {tokens rest : List Token}
    (fresh : ¬ diagnostic.BehindBrace ((p.opened count).facing (blamed diagnostic tokens rest)))
    (late : diagnostic.cause.atLookahead = true) :
    ∀ last ∈ tokens.getLast?, last.kind ≠ .closeCurly := by
  rintro last found closes
  refine fresh ⟨late, ?_⟩
  rw [Parser.current_facing, blamed, if_pos late, window, Option.mem_def.mp found]
  exact closes

/-- Counted once more, a closing brace moves the place to resume ahead of the right one. -/
theorem behindClosing_again {token : Token} {depth : Nat} (closes : token.kind = .closeCurly)
    (inside : 0 < depth) (rest : List Token) :
    behindClosing depth rest = (behindClosing depth (token :: rest)).bind (behindClosing 1) := by
  rw [behindClosing, if_neg (by simp [closes]), if_pos closes]
  split
  · next last =>
    obtain rfl : depth = 1 := by omega
    rfl
  · next further =>
    obtain ⟨depth, rfl⟩ : ∃ less, depth = less + 1 := ⟨depth - 1, by omega⟩
    exact behindClosing_succ (by omega) rest

theorem pastSemicolon_suffix (tokens : List Token) : pastSemicolon tokens <:+ tokens := by
  unfold pastSemicolon
  split
  · exact tokens.tail_suffix
  · exact List.suffix_rfl

theorem length_pastSemicolon_lt {tokens behind : List Token}
    (closed : behindClosing 1 tokens = some behind) :
    (pastSemicolon behind).length < (pastSemicolon tokens).length := by
  have fewer := (pastSemicolon_suffix behind).length_le
  have shorter {rest : List Token} (closed : behindClosing 1 rest = some behind) :
      (pastSemicolon behind).length < rest.length := by
    obtain ⟨closing, suffix⟩ := behindClosing_suffix closed
    exact Nat.lt_of_le_of_lt fewer suffix.length_le
  cases tokens with
  | nil => cases closed
  | cons token rest =>
    rw [pastSemicolon.eq_1 (token :: rest), front_cons]
    split
    · next semicolon =>
      rw [behindClosing, semicolon] at closed
      exact shorter closed
    · exact shorter closed

namespace Parser

variable {limit : Option Nat} {tokens : List Token} {q after : Parser (List Token)}
  {diagnostic : Diagnostic} {depth : Nat}

/-- A parser at the beginning of a statement has no block open and faces what is left. -/
theorem Reaches.faces (reached : (Parser.start limit .standard tokens).Reaches q) :
    q.Stands limit 0 ∧ q.openBlocks = 0 ∧
      ∃ earlier rest, tokens = earlier ++ rest ∧ q = q.facing rest := by
  induction reached with
  | start => exact ⟨⟨rfl, rfl, rfl⟩, rfl, [], tokens, rfl, start_eq_facing limit .standard tokens⟩
  | @statement q after statement _ _ ran ih =>
    obtain ⟨stands, closed, earlier, rest, rfl, faces⟩ := ih
    rw [faces] at ran
    obtain ⟨ending, level, taken, rest, rfl, written, -, -, rfl⟩ :=
      written_of_accepted stands.standard ran
    rw [advance_window _ written.ne_nil]
    exact ⟨⟨stands.standard, stands.limit_eq, stands.nesting_eq⟩, closed, earlier ++ taken, rest,
      (List.append_assoc ..).symm, rfl⟩
  | @recovery q after diagnostic _ _ ran ih =>
    obtain ⟨stands, closed, earlier, rest, rfl, faces⟩ := ih
    rw [faces] at ran
    obtain ⟨count, taken, rest, rfl, -, -, rfl⟩ := refused_of_rejected stands.standard ran
    have closed' : (q.record diagnostic).openBlocks = 0 := closed
    obtain ⟨skipped, split⟩ := resumed_blamed_suffix count diagnostic taken rest
    have resumes := recover_facing closed' count (blamed diagnostic taken rest)
    rw [show ((((q.opened count).facing (blamed diagnostic taken rest)).record
      diagnostic).recover.advance) = _ from resumes, ← split]
    exact ⟨⟨stands.standard, stands.limit_eq, stands.nesting_eq⟩, closed, earlier ++ skipped, _,
      (List.append_assoc ..).symm, rfl⟩

/-- A parser that refuses a statement inside its blocks resumes where the skipped tokens end. -/
theorem resumesBehind {p : Parser (List Token)} {count : Nat} {skipped : List Token}
    (closed : p.openBlocks = 0) (plain : Plain skipped) (inside : 0 < count)
    (diagnostic : Diagnostic) :
    p.ResumesBehind ((p.opened count).facing skipped) diagnostic (behindClosing count skipped) := by
  have closed' : (p.record diagnostic).openBlocks = 0 := closed
  have resumes := recover_facing closed' count skipped
  cases place : behindClosing count skipped with
  | none => exact resumes.trans (by rw [resumed_eq_nil plain inside place])
  | some behind =>
    intro alone
    exact resumes.trans (by rw [resumed_eq_pastSemicolon inside place alone])

/-- What resumes behind one brace does not resume behind a later one. -/
theorem ResumesBehind.not_again {p after : Parser (List Token)} {tokens early behind : List Token}
    (plain : Plain tokens) (found : behindClosing depth tokens = some early)
    (closed : behindClosing 1 early = some behind)
    (resumes : p.ResumesBehind after diagnostic (some early))
    (alone : (front early).kind ≠ .elseWord) (alone' : (front behind).kind ≠ .elseWord) :
    ¬ p.ResumesBehind after diagnostic (some behind) := by
  intro again
  obtain ⟨_, suffix⟩ := behindClosing_suffix found
  obtain ⟨_, suffix'⟩ := behindClosing_suffix closed
  have left : early <:+ tokens := (List.suffix_cons _ _).trans suffix
  have left' : behind <:+ tokens := ((List.suffix_cons _ _).trans suffix').trans left
  have same := congrArg ahead ((resumes alone).symm.trans (again alone'))
  rw [ahead_facing _ ((plain.suffix left).suffix (pastSemicolon_suffix early)),
    ahead_facing _ ((plain.suffix left').suffix (pastSemicolon_suffix behind))] at same
  exact (length_pastSemicolon_lt closed).ne' same

theorem Reaches.recovers (plain : Plain tokens)
    (reached : (Parser.start limit .standard tokens).Reaches q)
    (ran : q.statement = .rejected diagnostic after) (inside : 0 < after.openBlocks) :
    ∃ earlier before opening within rest,
      Recovers tokens q after diagnostic earlier before opening within rest := by
  obtain ⟨stands, closed, earlier, here, rfl, faces⟩ := reached.faces
  have plain := (plain_append.mp plain).2
  rw [faces] at ran
  obtain ⟨count, taken, rest, rfl, -, refused, left⟩ := refused_of_rejected stands.standard ran
  have depth : after.openBlocks = count := by
    rw [left, openBlocks_facing, opened, closed, Nat.zero_add]
  rw [depth] at inside
  obtain ⟨count, rfl⟩ : ∃ less, count = less + 1 := ⟨count - 1, by omega⟩
  have halts := refused.halts
  obtain ⟨before, opening, within, rfl, shut, opens, others⟩ := halts.opens.outermost
  obtain ⟨plain', plain''⟩ := plain_append.mp plain
  have skipped := plain.suffix (blamed_suffix diagnostic _ rest)
  have outermost : behindClosing 1 (within ++ rest) = behindClosing (count + 1) rest :=
    behindClosing_append (plain_cons.mp (plain_append.mp plain').2).2 others rest
  have resumes := resumesBehind closed skipped inside diagnostic
  rw [← left] at resumes
  -- The last token taken is under examination when the one behind it is blamed.
  have held (late : diagnostic.cause.atLookahead = true) :
      blamed diagnostic (before ++ opening :: within) rest = after.current :: rest := by
    obtain ⟨last, held⟩ := exists_window_eq_cons (refused.ne_nil late) rest
    rw [left, blamed, if_pos late, held]
    rfl
  refine ⟨earlier, before, opening, within, rest, ⟨rfl, faces, ?_, shut, opens, ?_, ?_, ?_, ?_⟩⟩
  · rw [left, refused.onward q plain'']
  · rwa [depth]
  · intro fresh
    rw [left] at fresh
    rwa [halts.behindClosing_blamed plain' (diagnostic.not_closeCurly_of_not_behindBrace fresh),
      ← outermost] at resumes
  · rintro ⟨late, closes⟩
    rw [held late] at resumes
    rw [outermost, depth]
    exact ⟨resumes, behindClosing_again closes inside rest⟩
  · rintro ⟨late, closes⟩ early found behind closed alone alone'
    rw [depth] at found
    rw [Option.mem_def] at found closed
    rw [outermost, behindClosing_again closes inside rest, found, Option.bind_some, closed]
    rw [held late, found] at resumes
    exact resumes.not_again (held late ▸ skipped) found closed alone alone'

/-- Behind a refused statement that is a single block, reading starts anew. -/
theorem result_block_refused {head body behind : List Token} {opening closing : Token}
    (flat : ∀ token ∈ head, token.kind.Flat) (plain : Plain (head ++ opening :: body))
    (opens : opening.kind = .openCurly) (balanced : Opens 0 body)
    (closes : closing.kind = .closeCurly)
    (ran : (Parser.start limit .standard (head ++ (opening :: body ++ [closing]))).statement =
      .rejected diagnostic after)
    (inside : 0 < after.openBlocks) (fresh : ¬ diagnostic.BehindBrace after)
    (alone : (front behind).kind ≠ .elseWord) (apart : (front behind).kind ≠ .semicolon) :
    (Parser.start limit .standard (head ++ (opening :: body ++ [closing]) ++ behind)).result =
      ((Parser.start limit .standard behind).result.1,
        diagnostic :: (Parser.start limit .standard behind).result.2) := by
  rw [start_eq_facing] at ran
  obtain ⟨count, taken, rest, same, blame, refused, rfl⟩ :=
    refused_of_rejected (p := .start limit .standard []) rfl ran
  have inside : 0 < count := by
    have depth : 0 < 0 + count := inside
    omega
  obtain ⟨count, rfl⟩ : ∃ less, count = less + 1 := ⟨count - 1, by omega⟩
  have halts := refused.halts
  obtain ⟨others, rfl, halves, shut⟩ := halts.opens.within flat opens balanced closes same
  obtain ⟨plain', plain''⟩ := plain_append.mp (halves ▸ plain)
  have whole : head ++ (opening :: body ++ [closing]) ++ behind =
      taken ++ (others ++ closing :: behind) := by
    rw [same]
    simp
  have place : behindClosing (count + 1) (blamed diagnostic taken (others ++ closing :: behind)) =
      some behind := by
    rw [halts.behindClosing_blamed plain' (diagnostic.not_closeCurly_of_not_behindBrace fresh),
      behindClosing_append plain'' shut, behindClosing, if_neg (by simp [closes]), if_pos closes,
      if_pos (Nat.le_refl 1)]
  have resumes := resumed_eq_pastSemicolon (Nat.succ_pos count) place alone
  rw [pastSemicolon, if_neg apart] at resumes
  have blame' : front (others ++ closing :: behind) = diagnostic.token := by
    rw [front_append_cons, blame]
  have present : (front (taken ++ (others ++ closing :: behind))).kind ≠ .endOfInput := by
    have begun : taken ++ (others ++ closing :: behind) =
        (head ++ opening :: body) ++ closing :: behind := by rw [halves, List.append_assoc]
    rw [begun, front_append_of_ne_nil (by simp)]
    exact plain.front (by simp)
  obtain ⟨statements, diagnostics, run⟩ := exists_run limit behind
  have run' : Run limit (taken ++ (others ++ closing :: behind)) statements
      (diagnostic :: diagnostics) :=
    .recovery refused blame' present (by rwa [resumes])
  rw [whole, run.result, run'.result]

end Parser

/-- The beginning of a function without parameters, up to its block. -/
def functionHead : List Token := [.fnWord, .openParen, .closeParen]

/-- A function that is refused in its block. -/
theorem Stmt.RefusedList.function {limit : Option Nat} {count : Nat} {diagnostic : Diagnostic}
    {tokens : List Token} (room : Room limit 0 1)
    (body : Stmt.RefusedList limit .closeCurly 1 count diagnostic tokens) :
    Stmt.Refused limit 0 (count + 1) diagnostic (functionHead ++ .openCurly :: tokens) :=
  .expression (by decide : Rules.standard.statement .fnWord = none)
    (.operand room (.does rfl rfl (.none rfl) (.statement rfl body)))

/-- A statement that is refused inside its blocks is skipped up to the brace that closes the
outermost one of them, unless the refusal is noticed behind a closing brace that the statement had
already taken. A refused function is reported once, then, and what follows is read as if it stood
alone. -/
theorem recovery_resumes (limit : Option Nat) :
    (∀ (tokens : List Token) (q after : Parser (List Token)) (diagnostic : Diagnostic),
      Plain tokens → (Parser.start limit .standard tokens).Reaches q →
      q.statement = .rejected diagnostic after → 0 < after.openBlocks →
      ∃ earlier before opening within rest,
        Parser.Recovers tokens q after diagnostic earlier before opening within rest) ∧
    ∀ (head body behind : List Token) (opening closing : Token) (after : Parser (List Token))
      (diagnostic : Diagnostic), head.map Token.kind = [.fnWord, .openParen, .closeParen] →
      opening.kind = .openCurly → Plain body → Opens 0 body → closing.kind = .closeCurly →
      (Parser.start limit .standard (head ++ (opening :: body ++ [closing]))).statement =
        .rejected diagnostic after →
      0 < after.openBlocks → ¬ diagnostic.BehindBrace after → (front behind).kind ≠ .elseWord →
      (front behind).kind ≠ .semicolon →
      (Parser.start limit .standard (head ++ (opening :: body ++ [closing]) ++ behind)).result =
        ((Parser.start limit .standard behind).result.1,
          diagnostic :: (Parser.start limit .standard behind).result.2) := by
  refine ⟨fun tokens q after diagnostic plain reached ran inside =>
    reached.recovers plain ran inside, ?_⟩
  intro head body behind opening closing after diagnostic function opens plain balanced closes ran
    inside fresh alone apart
  have kinds (token : Token) (among : token ∈ head) :
      token.kind = .fnWord ∨ token.kind = .openParen ∨ token.kind = .closeParen := by
    have := List.mem_map_of_mem (f := Token.kind) among
    simpa [function] using this
  refine Parser.result_block_refused (fun token among => ?_)
    (plain_append.mpr ⟨fun token among => ?_, plain_cons.mpr ⟨by simp [opens], plain⟩⟩) opens
    balanced closes ran inside fresh alone apart
  · rcases kinds token among with kind | kind | kind <;> rw [kind] <;> decide
  · rcases kinds token among with kind | kind | kind <;> simp [kind]

theorem room_standard : Room (some Parser.standardLimit) 0 2 := room_of_le (by decide)

/-- A declaration without a name leaves the block of the function open. -/
theorem recovery_resumes_var :
    (∃ after earlier before opening within rest, Parser.Recovers
      (functionHead ++ (.openCurly :: [.varWord, .assign] ++ [.closeCurly]))
      (Parser.ofStream (functionHead ++ (.openCurly :: [.varWord, .assign] ++ [.closeCurly]))) after
      (.unexpected .identifier .assign) earlier before opening within rest) ∧
    parse (functionHead ++ (.openCurly :: [.varWord, .assign] ++ [.closeCurly]) ++
        [Token.identifier "z", .semicolon]) =
      ((parse [Token.identifier "z", .semicolon]).1,
        .unexpected .identifier .assign :: (parse [Token.identifier "z", .semicolon]).2) := by
  have refused : Stmt.RefusedList (some Parser.standardLimit) .closeCurly 1 0
      (.unexpected .identifier .assign) [.varWord] :=
    .first (by decide) (by decide) (.name rfl (by decide))
  have ran := Parser.statement_rejected (p := .start (some Parser.standardLimit) .standard [])
    ⟨rfl, rfl, rfl⟩ (refused.function (room_standard.mono (by decide)))
    (show front [.assign, .closeCurly] = _ from rfl)
  have resumes := recovery_resumes (some Parser.standardLimit)
  constructor
  · exact ⟨_, resumes.1 _ _ _ _ (by decide) .start ran (by decide)⟩
  · exact resumes.2 functionHead [.varWord, .assign] [Token.identifier "z", .semicolon] .openCurly
      .closeCurly _ _ rfl rfl (by decide) rfl rfl ran (by decide)
      (by rintro ⟨-, closes⟩; cases closes) (by decide) (by decide)

/-- The tokens of `var x = fn() { } y;`: the declaration is refused behind the block in it. -/
def strayBody : List Token :=
  .varWord :: .identifier "x" :: .assign :: (functionHead ++ [.openCurly, .closeCurly]) ++
    [.identifier "y", .semicolon]

theorem strayBody_refused : Stmt.RefusedList (some Parser.standardLimit) .closeCurly 1 0
    (.unexpected .semicolon (.identifier "y"))
    (.varWord :: .identifier "x" :: .assign :: (functionHead ++ [.openCurly, .closeCurly])) :=
  .first (by decide) (by decide) (.declaration rfl rfl rfl
    (.close (.function rfl rfl (.none rfl) (.mk rfl .nil rfl)) (room_standard.mono (by decide))
      ⟨by decide, nofun⟩ (by decide)))

theorem Stmt.written_identifier (name : String) : Stmt.Written none 1
    (.expression (.identifier name) (.identifier (.ofToken (.identifier name))))
    [.identifier name, .semicolon] :=
  .expression (Expr.written_identifier name) rfl

/-- Recovery counts the closing brace of the inner function once more and resumes in the outer one,
so that `y` is read as a statement and the brace behind it is blamed. -/
theorem recovery_resumes_early :
    (functionHead.map Token.kind = [.fnWord, .openParen, .closeParen] ∧ Plain strayBody ∧
      Opens 0 strayBody ∧ ∃ after,
        (Parser.ofStream (functionHead ++ (.openCurly :: strayBody ++ [.closeCurly]))).statement =
          .rejected (.unexpected .semicolon (.identifier "y")) after ∧ 0 < after.openBlocks) ∧
    parse [Token.identifier "z", .semicolon] =
      (⟨[.expression (.identifier "z") (.identifier (.ofToken (.identifier "z")))]⟩, []) ∧
    parse (functionHead ++ (.openCurly :: strayBody ++ [.closeCurly]) ++
        [.identifier "z", .semicolon]) =
      (⟨[.expression (.identifier "y") (.identifier (.ofToken (.identifier "y"))),
          .expression (.identifier "z") (.identifier (.ofToken (.identifier "z")))]⟩,
        [.unexpected .semicolon (.identifier "y"), .noOperand .closeCurly]) ∧
    ∀ diagnostic, parse (functionHead ++ (.openCurly :: strayBody ++ [.closeCurly]) ++
        [.identifier "z", .semicolon]) ≠
      ((parse [Token.identifier "z", .semicolon]).1,
        diagnostic :: (parse [Token.identifier "z", .semicolon]).2) := by
  have room : Room (some Parser.standardLimit) 0 1 := room_standard.mono (by decide)
  have alone : Run (some Parser.standardLimit) [.identifier "z", .semicolon] _ [] :=
    .statement (Stmt.written_identifier "z") room (apart_none _) (.ended rfl)
  have refused := strayBody_refused.function room
  have ran := Parser.statement_rejected (p := .start (some Parser.standardLimit) .standard [])
    ⟨rfl, rfl, rfl⟩ refused (show front [.identifier "y", .semicolon, .closeCurly] = _ from rfl)
  have stray : Stmt.Refused (some Parser.standardLimit) 0 0 (.noOperand .closeCurly) [] :=
    .expression (by decide) (.operand room (.start (by decide)))
  have behind : Run (some Parser.standardLimit) [.closeCurly, .identifier "z", .semicolon] _ _ :=
    .recovery stray rfl (by decide) alone
  have behind : Run (some Parser.standardLimit)
      [.identifier "y", .semicolon, .closeCurly, .identifier "z", .semicolon] _ _ :=
    .statement (Stmt.written_identifier "y") room (apart_none _) behind
  have whole := @Run.recovery _ _ _ _ _ _
    [.identifier "y", .semicolon, .closeCurly, .identifier "z", .semicolon] refused rfl
    (by decide) behind
  refine ⟨⟨rfl, by decide, rfl, _, ran, by decide⟩, alone.result, whole.result,
    fun diagnostic same => ?_⟩
  have counts := congrArg List.length (congrArg Prod.snd (whole.result.symm.trans same))
  have clean : (parse [Token.identifier "z", .semicolon]).2 = [] := congrArg Prod.snd alone.result
  rw [clean] at counts
  cases counts

end ScriptReader
