import ScriptReader.Proofs.Run

/-! # Streams that yield the same tokens

A parser sees no more of its stream than the tokens it yields. Two parsers that differ in nothing
but in how their tokens are stored therefore move in step, rule by rule and statement by statement.
A text is so parsed like the list of its tokens, which is what the other results are about.
-/

namespace ScriptReader

variable {σ τ α β : Type} [TokenStream σ] [TokenStream τ]

namespace TokenStream

/-- The two streams yield the same tokens for ever. -/
def Alike (stream : σ) (other : τ) : Prop := ∀ count, take count stream = take count other

theorem Alike.next {stream : σ} {other : τ} (alike : Alike stream other) :
    (next stream).1 = (next other).1 ∧ Alike (next stream).2 (next other).2 := by
  refine ⟨?_, fun count => ?_⟩
  · have first := alike 1
    simpa [take] using first
  · have more := alike (count + 1)
    simp only [take, List.cons.injEq] at more
    exact more.2

/-- A list of tokens is never longer than what bounds the stream that yields it. -/
theorem Alike.length_le {tokens : List Token} (plain : Plain tokens) :
    ∀ {stream : σ}, Alike stream tokens → tokens.length ≤ remaining stream := by
  induction tokens with
  | nil => exact fun _ => Nat.zero_le _
  | cons token tokens ih =>
    intro stream alike
    obtain ⟨present, plain⟩ := plain_cons.mp plain
    obtain ⟨same, behind⟩ := alike.next
    have shorter : tokens.length ≤ _ := ih plain behind
    have weight := weight_next stream
    rw [same, show (TokenStream.next (token :: tokens)).1 = token from rfl,
      Token.weight_eq_one present] at weight
    rw [List.length_cons]
    omega

/-- A stream that never yields anything behind the end of input is the list of its tokens. -/
theorem alike_drain (stays : σ → Prop)
    (ended : ∀ {stream}, stays stream → next stream = (.endOfInput, stream))
    (ends : ∀ {stream : σ}, (next stream).1.kind = .endOfInput →
      (next stream).1 = .endOfInput ∧ stays (next stream).2) (stream : σ) :
    Alike stream (drain stream) := by
  have constant {stream} (there : stays stream) : Alike stream ([] : List Token) := by
    intro count
    induction count with
    | zero => rfl
    | succ count ih =>
      rw [take, take, ended there, ih]
      rfl
  intro count
  induction count generalizing stream with
  | zero => rfl
  | succ count ih =>
    rw [drain]
    split
    · next last =>
      obtain ⟨mark, there⟩ := ends last
      rw [take, take, mark, constant there]
      rfl
    · rw [take, ih]
      rfl

/-- Streams that yield the same tokens have the same tokens up to the end of input. -/
theorem Alike.drain_eq {stream : σ} {other : τ} (alike : Alike stream other) :
    drain stream = drain other := by
  fun_induction drain stream generalizing other with
  | case1 stream ended =>
    rw [drain, if_pos (alike.next.1 ▸ ended)]
  | case2 stream present ih =>
    rw [drain.eq_1 other, if_neg (alike.next.1 ▸ present), ← alike.next.1, ← ih alike.next.2]

theorem plain_drain (stream : σ) : Plain (drain stream) := by
  fun_induction drain stream with
  | case1 => nofun
  | case2 stream present ih => exact plain_cons.mpr ⟨present, ih⟩

end TokenStream

open TokenStream

/-- The parsers hold the same, and their streams yield the same tokens. -/
structure Parser.Mirrors (p : Parser σ) (q : Parser τ) : Prop where
  source : Alike p.source q.source
  current : p.current = q.current
  peek : p.peek = q.peek
  diagnostics : p.diagnostics = q.diagnostics
  openBlocks : p.openBlocks = q.openBlocks
  nesting : p.nesting = q.nesting
  limit : p.limit = q.limit
  rules : p.rules = q.rules

namespace Parser.Mirrors

variable {p : Parser σ} {q : Parser τ}

theorem advance (mirrors : p.Mirrors q) : p.advance.Mirrors q.advance :=
  { mirrors with
    source := mirrors.source.next.2
    current := mirrors.peek
    peek := mirrors.source.next.1 }

theorem enterBlock (mirrors : p.Mirrors q) : p.enterBlock.Mirrors q.enterBlock :=
  { mirrors with openBlocks := congrArg (· + 1) mirrors.openBlocks }

theorem exitBlock (mirrors : p.Mirrors q) : p.exitBlock.Mirrors q.exitBlock :=
  { mirrors with openBlocks := congrArg (· - 1) mirrors.openBlocks }

theorem exitNesting (mirrors : p.Mirrors q) : p.exitNesting.Mirrors q.exitNesting :=
  { mirrors with nesting := congrArg (· - 1) mirrors.nesting }

theorem record (mirrors : p.Mirrors q) (diagnostic : Diagnostic) :
    (p.record diagnostic).Mirrors (q.record diagnostic) :=
  { mirrors with diagnostics := congrArg (· ++ [diagnostic]) mirrors.diagnostics }

theorem start {stream : σ} {other : τ} (alike : Alike stream other) (limit : Option Nat)
    (rules : Rules) : (Parser.start limit rules stream).Mirrors (Parser.start limit rules other) :=
  advance (advance ⟨alike, rfl, rfl, rfl, rfl, rfl, rfl, rfl⟩)

/-- Both skip to the same boundary. -/
theorem skip (mirrors : p.Mirrors q) (depth : Nat) : (p.skip depth).Mirrors (q.skip depth) := by
  induction size : p.ahead using Nat.strong_induction_on generalizing p q depth with
  | _ size ih =>
    subst size
    rw [Parser.skip, Parser.skip.eq_1 depth q, ← mirrors.current, ← mirrors.peek]
    split
    · exact mirrors
    · next present =>
      have further (depth : Nat) : (p.advance.skip depth).Mirrors (q.advance.skip depth) :=
        ih _ (ahead_advance_lt present (Nat.le_refl _)) mirrors.advance depth rfl
      split
      · split
        · exact mirrors
        · exact further depth
      · exact further (depth + 1)
      · split
        · exact mirrors
        · split
          · split
            · exact mirrors.advance
            · exact mirrors
          · exact further (depth - 1)
      · exact further depth

theorem recover (mirrors : p.Mirrors q) : p.recover.Mirrors q.recover := by
  have emptied : Parser.Mirrors { p with openBlocks := 0 } { q with openBlocks := 0 } :=
    { mirrors with openBlocks := rfl }
  rw [Parser.recover, Parser.recover, mirrors.openBlocks]
  exact emptied.skip q.openBlocks

end Parser.Mirrors

/-- The outcomes are the same, but for the streams of the parsers they leave. -/
def Outcome.Mirrors : Outcome σ α → Outcome τ α → Prop
  | .accepted value after, .accepted value' after' => value = value' ∧ after.Mirrors after'
  | .rejected diagnostic after, .rejected diagnostic' after' =>
    diagnostic = diagnostic' ∧ after.Mirrors after'
  | .unfinished, .unfinished => True
  | _, _ => False

namespace Outcome.Mirrors

variable {outcome : Outcome σ α} {value : α} {diagnostic : Diagnostic} {after : Parser τ}

theorem accepted (mirrors : outcome.Mirrors (.accepted value after)) :
    ∃ before, outcome = .accepted value before ∧ before.Mirrors after := by
  cases outcome with
  | accepted other before =>
    obtain ⟨rfl, mirrors⟩ := mirrors
    exact ⟨before, rfl, mirrors⟩
  | rejected => exact mirrors.elim
  | unfinished => exact mirrors.elim

theorem rejected (mirrors : outcome.Mirrors (.rejected diagnostic after : Outcome τ α)) :
    ∃ before, outcome = .rejected diagnostic before ∧ before.Mirrors after := by
  cases outcome with
  | accepted => exact mirrors.elim
  | rejected other before =>
    obtain ⟨rfl, mirrors⟩ := mirrors
    exact ⟨before, rfl, mirrors⟩
  | unfinished => exact mirrors.elim

theorem unfinished (mirrors : outcome.Mirrors (.unfinished : Outcome τ α)) :
    outcome = .unfinished := by
  cases outcome with
  | accepted => exact mirrors.elim
  | rejected => exact mirrors.elim
  | unfinished => rfl

theorem mapAfter {other : Outcome τ α} (mirrors : outcome.Mirrors other) :
    (outcome.mapAfter Parser.exitNesting).Mirrors (other.mapAfter Parser.exitNesting) := by
  cases other with
  | accepted =>
    obtain ⟨before, rfl, held⟩ := mirrors.accepted
    exact ⟨rfl, held.exitNesting⟩
  | rejected =>
    obtain ⟨before, rfl, held⟩ := mirrors.rejected
    exact ⟨rfl, held.exitNesting⟩
  | unfinished =>
    rw [mirrors.unfinished]
    trivial

end Outcome.Mirrors

/-- On parsers that hold the same the parses have the same outcome. -/
def Parse.Mirrors (parse : Parse σ α) (other : Parse τ α) : Prop :=
  ∀ p q, p.Mirrors q → (parse p).Mirrors (other q)

namespace Parse.Mirrors

theorem pure (value : α) : (Pure.pure value : Parse σ α).Mirrors (Pure.pure value : Parse τ α) :=
  fun _ _ mirrors => ⟨rfl, mirrors⟩

theorem unfinished : (Parse.unfinished : Parse σ α).Mirrors (Parse.unfinished : Parse τ α) :=
  fun _ _ _ => trivial

theorem bind {first : Parse σ α} {first' : Parse τ α} {next : α → Parse σ β}
    {next' : α → Parse τ β} (head : first.Mirrors first')
    (tail : ∀ value, (next value).Mirrors (next' value)) :
    (first >>= next).Mirrors (first' >>= next') := by
  intro p q mirrors
  change (Parse.bind first next p).Mirrors (Parse.bind first' next' q)
  have both := head p q mirrors
  unfold Parse.bind
  cases ran : first' q with
  | accepted value after =>
    rw [ran] at both
    obtain ⟨before, ran, mirrors⟩ := both.accepted
    rw [ran]
    exact tail value before after mirrors
  | rejected diagnostic after =>
    rw [ran] at both
    obtain ⟨before, ran, mirrors⟩ := both.rejected
    rw [ran]
    exact ⟨rfl, mirrors⟩
  | unfinished =>
    rw [ran] at both
    rw [both.unfinished]
    trivial

theorem nested {body : Parse σ α} {body' : Parse τ α} (inner : body.Mirrors body') :
    (Parse.nested body).Mirrors (Parse.nested body') := by
  intro p q mirrors
  rcases room_or_full p.limit p.nesting with room | ⟨most, limited, full⟩
  · rw [nested_room room, nested_room (mirrors.limit ▸ mirrors.nesting ▸ room)]
    refine (inner _ _ ?_).mapAfter
    exact { mirrors with nesting := congrArg (· + 1) mirrors.nesting }
  · rw [nested_full limited full, nested_full (mirrors.limit ▸ limited) (mirrors.nesting ▸ full)]
    exact ⟨congrArg _ mirrors.current, mirrors⟩

theorem enterBlock : (Parse.modify Parser.enterBlock : Parse σ Unit).Mirrors
    (Parse.modify Parser.enterBlock : Parse τ Unit) :=
  fun _ _ mirrors => ⟨rfl, mirrors.enterBlock⟩

theorem exitBlock : (Parse.modify Parser.exitBlock : Parse σ Unit).Mirrors
    (Parse.modify Parser.exitBlock : Parse τ Unit) :=
  fun _ _ mirrors => ⟨rfl, mirrors.exitBlock⟩

theorem congruence : Parse.Congruence (σ := σ) (τ := τ) Parse.Mirrors where
  pure := pure
  bind := bind
  nested := nested
  reject _ _ _ mirrors := ⟨rfl, mirrors⟩
  current _ _ mirrors := ⟨mirrors.current, mirrors⟩
  peek _ _ mirrors := ⟨mirrors.peek, mirrors⟩
  rules _ _ mirrors := ⟨mirrors.rules, mirrors⟩
  advance _ _ mirrors := ⟨rfl, mirrors.advance⟩
  within inner tail :=
    enterBlock.bind fun _ => inner.bind fun value => exitBlock.bind fun _ => tail value

end Parse.Mirrors

/-- With the same fuel, the descents over both streams move in step. -/
theorem descent_mirrors (fuel : Nat) :
    (descent fuel : Descent σ).Related Parse.Mirrors (descent fuel : Descent τ) := by
  induction fuel with
  | zero =>
    exact ⟨fun _ => Parse.Mirrors.unfinished, fun _ _ => Parse.Mirrors.unfinished,
      Parse.Mirrors.unfinished, Parse.Mirrors.unfinished, Parse.Mirrors.unfinished⟩
  | succ fuel ih => exact ih.descent Parse.Mirrors.congruence

/-- Beside a parser over a list there is enough fuel to come to the same outcome. -/
theorem Parser.Mirrors.statement {p : Parser σ} {q : Parser (List Token)} {tokens : List Token}
    (mirrors : p.Mirrors (q.facing tokens)) (plain : Plain tokens)
    (standard : q.rules = .standard) : p.statement.Mirrors (q.facing tokens).statement := by
  have enough : (q.facing tokens).fuel ≤ p.fuel := by
    have left : Plain (q.facing tokens).source := plain.suffix (List.drop_suffix 2 tokens)
    have shorter : remaining (q.facing tokens).source ≤ remaining p.source :=
      mirrors.source.length_le left
    rw [fuel, fuel, mirrors.limit]
    omega
  have same : (descent p.fuel).statement (q.facing tokens) = (q.facing tokens).statement :=
    (descent_within enough).statement Parse.Within.congruence _ (statement_ne_unfinished standard)
  rw [← same]
  exact (descent_mirrors p.fuel).statement Parse.Mirrors.congruence p _ mirrors

/-- A parser over another stream follows the run of the list. -/
theorem Run.mirrored {limit : Option Nat} {tokens : List Token} {statements : List Stmt}
    {diagnostics : List Diagnostic} (run : Run limit tokens statements diagnostics) :
    ∀ {p : Parser σ} {q : Parser (List Token)}, p.Mirrors (q.facing tokens) → q.Stands limit 0 →
      q.openBlocks = 0 → Plain tokens →
      ∃ last, p.statements? = some (statements, last) ∧
        last.diagnostics = q.diagnostics ++ diagnostics := by
  induction run with
  | @ended tokens ended =>
    intro p q mirrors _ _ _
    refine ⟨p, ?_, by rw [mirrors.diagnostics, List.append_nil]; rfl⟩
    rw [Parser.statements?, dif_pos (by rw [mirrors.current]; exact ended)]
  | @statement ending level statement statements diagnostics tokens rest written room apart _ ih =>
    intro p q mirrors stands closed plain
    have both := mirrors.statement plain stands.standard
    rw [Parser.statement_accepted stands.standard written (stands.room room) apart] at both
    obtain ⟨before, ran, held⟩ := both.accepted
    have behind := held.advance
    rw [Parser.advance_window _ written.ne_nil] at behind
    obtain ⟨last, further, found⟩ := ih behind stands closed (plain_append.mp plain).2
    have present := written.front_kind.2
    rw [← front_append_of_ne_nil written.ne_nil rest, ← Parser.current_facing q,
      ← mirrors.current] at present
    refine ⟨last, ?_, found⟩
    rw [Parser.statements?_accepted present ran, further]
    rfl
  | @recovery count diagnostic statements diagnostics tokens rest refused blame present _ ih =>
    intro p q mirrors stands closed plain
    have both := mirrors.statement plain stands.standard
    rw [Parser.statement_rejected stands refused blame] at both
    obtain ⟨before, ran, held⟩ := both.rejected
    have behind := (held.record diagnostic).recover.advance
    have closed' : (q.record diagnostic).openBlocks = 0 := closed
    have plain' := plain.suffix (blamed_suffix diagnostic tokens rest)
    change Parser.Mirrors _ (((q.record diagnostic).opened count).facing
      (blamed diagnostic tokens rest)).recover.advance at behind
    rw [Parser.recover_facing closed'] at behind
    obtain ⟨last, further, found⟩ := ih behind
      ⟨stands.standard, stands.limit_eq, stands.nesting_eq⟩ closed'
      (plain'.suffix (resumed_suffix count _))
    rw [← Parser.current_facing q, ← mirrors.current] at present
    refine ⟨last, ?_, by rw [found, Parser.record, List.append_assoc]; rfl⟩
    rw [Parser.statements?_rejected present ran, further]

/-- A parser over a stream reads the program of a list that yields the same tokens. -/
theorem exists_program?_of_alike {stream : σ} {tokens : List Token} (alike : Alike stream tokens)
    (plain : Plain tokens) :
    ∃ last, (Parser.ofStream stream).program? = some ((parse tokens).1, last) ∧
      last.diagnostics = (parse tokens).2 := by
  have mirrors := Parser.Mirrors.start alike (some Parser.standardLimit) .standard
  rw [Parser.start_eq_facing] at mirrors
  obtain ⟨last, ran, found⟩ := (parse_run tokens).mirrored mirrors ⟨rfl, rfl, rfl⟩ rfl plain
  refine ⟨last, ?_, found⟩
  rw [Parser.program?, Parser.ofStream, ran]
  rfl

/-- A stream is parsed like a list that yields the same tokens. -/
theorem parse_eq_of_alike {stream : σ} {tokens : List Token} (alike : Alike stream tokens)
    (plain : Plain tokens) : parse stream = parse tokens := by
  obtain ⟨last, ran, found⟩ := exists_program?_of_alike alike plain
  rw [parse, Parser.result, ran]
  exact Prod.ext rfl found

/-! ### Texts -/

theorem Kind.ofWord_ne_endOfInput (word : String) : ofWord word ≠ .endOfInput := by
  unfold ofWord
  cases found : reserved.lookup word with
  | none => decide
  | some kind =>
    obtain ⟨before, after, split, -⟩ := List.lookup_eq_some_iff.mp found
    have among : ∀ entry ∈ reserved, entry.2 ≠ .endOfInput := by decide
    exact among (word, kind) (by simp [split])

theorem Kind.withEquals?_ne_endOfInput {c : Char} {pair : Kind}
    (found : withEquals? c = some pair) : pair ≠ .endOfInput := by
  revert found
  unfold withEquals?
  split <;> rintro ⟨⟩ <;> decide

theorem Kind.ofSymbol?_ne_endOfInput (c : Char) : (ofSymbol? c).getD .illegal ≠ .endOfInput := by
  unfold ofSymbol?
  split <;> decide

namespace Scanner

/-- At the end a scanner stays. -/
theorem next_of_exhausted {s : Scanner} (ended : s.current = none) : s.next = (.endOfInput, s) := by
  have stays : s.skipClass Alphabet.isBlank = s := by
    rw [skipClass, skipWhile]
    split
    · next held => rw [ended] at held; cases held
    · rfl
  rw [next, stays]
  simp only [ended]

theorem symbol_ne_endOfInput (s : Scanner) (c : Char) : (s.symbol c).1.kind ≠ .endOfInput := by
  have single := Kind.ofSymbol?_ne_endOfInput c
  unfold symbol
  split
  · next pair found =>
    split
    · exact Kind.withEquals?_ne_endOfInput found
    · exact single
  · exact single

/-- Only an exhausted scanner yields the end of input. -/
theorem next_of_endOfInput {s : Scanner} (ended : s.next.1.kind = .endOfInput) :
    s.next.1 = .endOfInput ∧ s.next.2.current = none := by
  unfold next at ended ⊢
  dsimp only at ended ⊢
  split at ended
  · next held => exact ⟨rfl, held⟩
  · split at ended
    · exact (Kind.ofWord_ne_endOfInput _ ended).elim
    · split at ended
      · cases ended
      · split at ended
        · exact (symbol_ne_endOfInput _ _ ended).elim
        · cases ended

theorem alike_tokens (s : Scanner) : Alike s s.tokens :=
  alike_drain (fun s : Scanner => s.current = none) next_of_exhausted next_of_endOfInput s

end Scanner

/-- A text is parsed like the list of its tokens. -/
theorem parseText_eq (text : String) : parseText text = parse (Scanner.ofString text).tokens :=
  parse_eq_of_alike (Scanner.alike_tokens _) (plain_drain _)

end ScriptReader
