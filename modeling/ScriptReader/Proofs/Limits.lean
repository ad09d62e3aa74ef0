import ScriptReader.Proofs.Spelling

/-! # Limits on nesting

A limit on nesting refuses statements and does nothing else. What is refused under one limit is
refused alike under every wider one, unless the refusal says that the limit is reached. A list on
which the limit is never reached is so read as without it, and a program that has no fault without
the limit is read up to the first statement that nests too deep.
-/

namespace ScriptReader

/-- What has room under the first limit has room under the second one. -/
def Widens (limit wider : Option Nat) : Prop := ∀ most ∈ wider, ∃ less ∈ limit, less ≤ most

/-- The diagnostic says that the limit is reached. -/
def Diagnostic.AtLimit (limit : Option Nat) (diagnostic : Diagnostic) : Prop :=
  ∃ most ∈ limit, diagnostic.cause = .tooDeep most

variable {limit wider : Option Nat}

theorem widens_none (limit : Option Nat) : Widens limit none := nofun

theorem Room.widened {nest level : Nat} (room : Room limit nest level)
    (widens : Widens limit wider) : Room wider nest level := by
  intro most limited
  obtain ⟨less, limited', le⟩ := widens most limited
  have := room less limited'
  omega

mutual

/-- Only a refusal that blames the limit is lost under a wider one. -/
theorem Expr.Refused.widened (widens : Widens limit wider) : ∀ {nest : Nat} {bound : Precedence}
    {count : Nat} {diagnostic : Diagnostic} {tokens : List Token},
    Expr.Refused limit nest bound count diagnostic tokens →
      diagnostic.AtLimit limit ∨ Expr.Refused wider nest bound count diagnostic tokens
  | _, _, _, _, _, .tooDeep limited _ => .inl ⟨_, limited, rfl⟩
  | _, _, _, _, _, .operand room inner =>
    (inner.widened widens).imp_right (.operand (room.widened widens))
  | _, _, _, _, _, .right operates first room taken loose second =>
    (second.widened widens).imp_right (.right operates first (room.widened widens) taken loose)
  | _, _, _, _, _, .arguments opens first room taken tight given =>
    (given.widened widens).imp_right (.arguments opens first (room.widened widens) taken tight)

theorem Expr.RefusedOperand.widened (widens : Widens limit wider) : ∀ {nest count : Nat}
    {diagnostic : Diagnostic} {tokens : List Token},
    Expr.RefusedOperand limit nest count diagnostic tokens →
      diagnostic.AtLimit limit ∨ Expr.RefusedOperand wider nest count diagnostic tokens
  | _, _, _, _, .start other => .inr (.start other)
  | _, _, _, _, .integer numeral unfit => .inr (.integer numeral unfit)
  | _, _, _, _, .unary operates inner => (inner.widened widens).imp_right (.unary operates)
  | _, _, _, _, .grouped opens inner => (inner.widened widens).imp_right (.grouped opens)
  | _, _, _, _, .condition chooses other => .inr (.condition chooses other)
  | _, _, _, _, .tested chooses opens inner =>
    (inner.widened widens).imp_right (.tested chooses opens)
  | _, _, _, _, .chosen chooses opens tested room closes inner =>
    (inner.widened widens).imp_right
      (.chosen chooses opens tested (room.widened widens) closes)
  | _, _, _, _, .left chooses opens tested room closes chosen space turns inner =>
    (inner.widened widens).imp_right
      (.left chooses opens tested (room.widened widens) closes chosen (space.widened widens) turns)
  | _, _, _, _, .function defines other => .inr (.function defines other)
  | _, _, _, _, .parameters defines opens inner => .inr (.parameters defines opens inner)
  | _, _, _, _, .does defines opens parameters inner =>
    (inner.widened widens).imp_right (.does defines opens parameters)

theorem Expr.Unclosed.widened (widens : Widens limit wider) : ∀ {nest : Nat} {closer : Kind}
    {count : Nat} {diagnostic : Diagnostic} {tokens : List Token},
    Expr.Unclosed limit nest closer count diagnostic tokens →
      diagnostic.AtLimit limit ∨ Expr.Unclosed wider nest closer count diagnostic tokens
  | _, _, _, _, _, .inner inner => (inner.widened widens).imp_right .inner
  | _, _, _, _, _, .close given room ends other =>
    .inr (.close given (room.widened widens) ends other)

theorem Expr.RefusedList.widened (widens : Widens limit wider) : ∀ {nest count : Nat}
    {diagnostic : Diagnostic} {tokens : List Token},
    Expr.RefusedList limit nest count diagnostic tokens →
      diagnostic.AtLimit limit ∨ Expr.RefusedList wider nest count diagnostic tokens
  | _, _, _, _, .first inner => (inner.widened widens).imp_right .first
  | _, _, _, _, .later first room separated rest =>
    (rest.widened widens).imp_right (.later first (room.widened widens) separated)

theorem Expr.Unlisted.widened (widens : Widens limit wider) : ∀ {nest count : Nat}
    {diagnostic : Diagnostic} {tokens : List Token},
    Expr.Unlisted limit nest count diagnostic tokens →
      diagnostic.AtLimit limit ∨ Expr.Unlisted wider nest count diagnostic tokens
  | _, _, _, _, .argument given rest => (rest.widened widens).imp_right (.argument given)
  | _, _, _, _, .close given room ends apart other =>
    .inr (.close given (room.widened widens) ends apart other)

theorem Stmt.Refused.widened (widens : Widens limit wider) : ∀ {nest count : Nat}
    {diagnostic : Diagnostic} {tokens : List Token},
    Stmt.Refused limit nest count diagnostic tokens →
      diagnostic.AtLimit limit ∨ Stmt.Refused wider nest count diagnostic tokens
  | _, _, _, _, .name declares other => .inr (.name declares other)
  | _, _, _, _, .assign declares named other => .inr (.assign declares named other)
  | _, _, _, _, .declaration declares named assigns inner =>
    (inner.widened widens).imp_right (.declaration declares named assigns)
  | _, _, _, _, .ret returns inner => (inner.widened widens).imp_right (.ret returns)
  | _, _, _, _, .expression plain inner => (inner.widened widens).imp_right (.expression plain)
  | _, _, _, _, .semicolon given room ends open_ other =>
    .inr (.semicolon given (room.widened widens) ends open_ other)

theorem Stmt.RefusedList.widened (widens : Widens limit wider) : ∀ {closer : Kind}
    {nest count : Nat} {diagnostic : Diagnostic} {tokens : List Token},
    Stmt.RefusedList limit closer nest count diagnostic tokens →
      diagnostic.AtLimit limit ∨ Stmt.RefusedList wider closer nest count diagnostic tokens
  | _, _, _, _, _, .first inside present inner =>
    (inner.widened widens).imp_right (.first inside present)
  | _, _, _, _, _, .later first room apart rest =>
    (rest.widened widens).imp_right (.later first (room.widened widens) apart)

theorem Block.Refused.widened (widens : Widens limit wider) : ∀ {nest count : Nat}
    {diagnostic : Diagnostic} {tokens : List Token},
    Block.Refused limit nest count diagnostic tokens →
      diagnostic.AtLimit limit ∨ Block.Refused wider nest count diagnostic tokens
  | _, _, _, _, .brace other => .inr (.brace other)
  | _, _, _, _, .statement opens body => (body.widened widens).imp_right (.statement opens)
  | _, _, _, _, .close opens given room ended =>
    .inr (.close opens given (room.widened widens) ended)

end

namespace Run

variable {tokens : List Token} {statements all : List Stmt} {diagnostics : List Diagnostic}

/-- A run that never reaches its limit is a run under every wider limit. -/
theorem widened (run : Run limit tokens statements diagnostics) (widens : Widens limit wider)
    (shallow : ∀ diagnostic ∈ diagnostics, ¬ diagnostic.AtLimit limit) :
    Run wider tokens statements diagnostics := by
  induction run with
  | ended ended => exact .ended ended
  | statement written room apart _ ih =>
    exact .statement written (room.widened widens) apart (ih shallow)
  | recovery refused blame present _ ih =>
    obtain ⟨inside, shallow⟩ := List.forall_mem_cons.mp shallow
    have refused := (refused.widened widens).resolve_left inside
    exact .recovery refused blame present (ih shallow)

/-- The run reads some statements and then refuses one because the limit is reached, where `all`
are the statements that another run reads. -/
def StopsShort (limit wider : Option Nat) (tokens : List Token) (statements all : List Stmt)
    (diagnostics : List Diagnostic) : Prop :=
  ∃ level count before later others diagnostic read taken rest,
    tokens = read ++ (taken ++ rest) ∧ statements = before ++ later ∧ all = before ++ others ∧
    Stmt.WrittenList level before read ∧ Room limit 0 level ∧
    diagnostic.AtLimit limit ∧ Stmt.Refused limit 0 count diagnostic taken ∧
    front rest = diagnostic.token ∧
    diagnostics.head? = some diagnostic ∧ Run limit (taken ++ rest) later diagnostics ∧
    Run wider (taken ++ rest) others []

/-- Where a run under a wider limit has no fault, a run reads the same, or it stops short. -/
theorem eq_or_stopsShort (run : Run limit tokens statements diagnostics)
    (widens : Widens limit wider) (clean : Run wider tokens all []) :
    (statements = all ∧ diagnostics = []) ∨
      StopsShort limit wider tokens statements all diagnostics := by
  induction run generalizing all with
  | ended ended =>
    obtain ⟨rfl, -⟩ := clean.unique (.ended ended)
    exact .inl ⟨rfl, rfl⟩
  | @statement ending level statement statements diagnostics tokens rest written room apart _ ih =>
    -- The wider run takes the same statement, and goes on with what is behind it.
    obtain ⟨others, found, behind⟩ := exists_run wider rest
    obtain ⟨rfl, rfl⟩ := clean.unique (.statement written (room.widened widens) apart behind)
    rcases ih behind with ⟨rfl, rfl⟩ | stops
    · exact .inl ⟨rfl, rfl⟩
    · right
      obtain ⟨deep, count, before, later, others, diagnostic, read, taken, rest, rfl, rfl, rfl,
        given, space, stop⟩ := stops
      have apart : ∀ next ∈ read.head?, Apart ending next.kind := by
        cases read with
        | nil => nofun
        | cons first read =>
          rintro next ⟨⟩
          exact apart
      exact ⟨_, count, statement :: before, later, others, diagnostic, tokens ++ read, taken, rest,
        (List.append_assoc ..).symm, rfl, rfl, .cons written apart given, room.max space, stop⟩
  | @recovery count diagnostic statements diagnostics tokens rest refused blame present behind _ =>
    rcases refused.widened widens with reached | refused'
    · right
      exact ⟨0, count, [], statements, all, diagnostic, [], tokens, rest, rfl, rfl, rfl, .nil,
        fun most _ => Nat.zero_le most, reached, refused, blame, rfl,
        .recovery refused blame present behind, clean⟩
    · obtain ⟨others, found, behind⟩ :=
        exists_run wider (resumed count (blamed diagnostic tokens rest))
      have fault := (clean.unique (.recovery refused' blame present behind)).2
      cases fault

end Run

/-- Where no diagnostic says that the limit is reached, a list is parsed as without a limit and as
under every larger one. What is parsed without a diagnostic when there is no limit is either parsed
alike, or up to a statement that nests too deep: the statements before it are the same, and its
diagnostic is the first one. -/
theorem parse_limited (tokens : List Token) :
    ((∀ diagnostic ∈ (parse tokens).2, ∀ most, diagnostic.cause ≠ .tooDeep most) →
      ∀ limit : Option Nat, (∀ most ∈ limit, Parser.standardLimit ≤ most) →
        (Parser.start limit .standard tokens).result = parse tokens) ∧
    ((Parser.start none .standard tokens).result.2 = [] →
      parse tokens = (Parser.start none .standard tokens).result ∨
      ∃ before read rest diagnostic after, tokens = read ++ rest ∧
        parse read = (⟨before⟩, []) ∧
        (Parser.ofStream rest).statement = .rejected diagnostic after ∧
        diagnostic.cause = .tooDeep Parser.standardLimit ∧
        parse tokens = (⟨before ++ (parse rest).1.statements⟩, (parse rest).2) ∧
        (parse tokens).2.head? = some diagnostic ∧
        (Parser.start none .standard tokens).result.1.statements =
          before ++ (Parser.start none .standard rest).result.1.statements) := by
  obtain ⟨statements, diagnostics, run⟩ := exists_run (some Parser.standardLimit) tokens
  rw [run.parse]
  constructor
  · intro shallow limit larger
    refine (run.widened (fun most limited => ⟨_, rfl, larger most limited⟩) ?_).result
    rintro diagnostic among ⟨most, -, reached⟩
    exact shallow diagnostic among most reached
  · intro clean
    obtain ⟨all, faults, wide⟩ := exists_run none tokens
    rw [wide.result] at clean ⊢
    obtain rfl : faults = [] := clean
    rcases run.eq_or_stopsShort (widens_none _) wide with ⟨rfl, rfl⟩ | stops
    · exact .inl rfl
    · right
      obtain ⟨level, count, before, later, others, diagnostic, read, taken, rest, rfl, rfl, rfl,
        given, room, ⟨most, limited, reached⟩, refused, blame, first, stop, behind⟩ := stops
      cases limited
      have stopped : parse (taken ++ rest) = (⟨later⟩, diagnostics) := stop.result
      have failed : (Parser.ofStream (taken ++ rest)).statement = .rejected diagnostic
          (((Parser.ofStream []).opened count).facing (blamed diagnostic taken rest)) := by
        rw [Parser.ofStream, Parser.start_eq_facing]
        exact Parser.statement_rejected ⟨rfl, rfl, rfl⟩ refused blame
      exact ⟨before, read, taken ++ rest, diagnostic, _, rfl, (given.run_whole room).result, failed,
        reached, by rw [stopped], first, by rw [behind.result]⟩

/-- The tokens of `y; !!..!x;` with a number of negations. -/
def negations (count : Nat) : List Token :=
  [.identifier "y", .semicolon] ++ List.replicate count ⟨.not, "!"⟩ ++ [.identifier "x", .semicolon]

/-- The operand counts as one more expression, so 127 negations are the most that can be read. -/
theorem parse_limited_negations :
    (parse (negations 127)).2 = [] ∧
    (Parser.start none .standard (negations 127)).result = parse (negations 127) ∧
    (Parser.start (some 200) .standard (negations 127)).result = parse (negations 127) ∧
    (Parser.start none .standard (negations 128)).result.2 = [] ∧
    ∃ diagnostic, (parse (negations 128)).2.head? = some diagnostic ∧
      diagnostic.cause = .tooDeep Parser.standardLimit := by
  have clean : (parse (negations 127)).2 = [] := by decide +kernel
  have shallow : ∀ diagnostic ∈ (parse (negations 127)).2, ∀ most,
      diagnostic.cause ≠ .tooDeep most := by
    rw [clean]
    exact List.forall_mem_nil _
  have wide : (Parser.start none .standard (negations 128)).result.2 = [] := by decide +kernel
  have refused : (parse (negations 128)).2 ≠ [] := by decide +kernel
  have same := (parse_limited (negations 127)).1 shallow
  refine ⟨clean, same none nofun, same (some 200) (by decide), wide, ?_⟩
  rcases (parse_limited (negations 128)).2 wide with same | stops
  · rw [same] at refused
    exact (refused wide).elim
  · obtain ⟨-, -, -, diagnostic, -, -, -, -, reached, -, first, -⟩ := stops
    exact ⟨diagnostic, first, reached⟩

end ScriptReader
