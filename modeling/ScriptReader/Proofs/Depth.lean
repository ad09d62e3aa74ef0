import ScriptReader.Proofs.Viability

/-! # Writings that nest too deep

The level of a writing is the number of expressions that are being read at once at its deepest
point. Where that is more than the limit leaves room for, the writing is refused at a token of its
own, and the diagnostic says that the limit is reached. So the limit decides exactly which writings
are read.
-/

namespace ScriptReader

/-- A beginning of the tokens is refused, since the token behind it would begin an expression beyond
the limit. -/
def BreaksOff (most : Nat) (refused : Nat → Diagnostic → List Token → Prop)
    (tokens : List Token) : Prop :=
  ∃ count token taken left, tokens = taken ++ token :: left ∧
    refused count ⟨.tooDeep most, token⟩ taken

namespace BreaksOff

variable {most : Nat} {refused refused' : Nat → Diagnostic → List Token → Prop}
  {tokens : List Token}

/-- Tokens in front of those that break off, where they are part of the refusal. -/
theorem behind (breaks : BreaksOff most refused tokens) (earlier : List Token)
    (further : ∀ {count token taken left}, tokens = taken ++ token :: left →
      refused count ⟨.tooDeep most, token⟩ taken →
      refused' count ⟨.tooDeep most, token⟩ (earlier ++ taken)) :
    BreaksOff most refused' (earlier ++ tokens) := by
  obtain ⟨count, token, taken, left, rfl, stopped⟩ := breaks
  exact ⟨count, token, earlier ++ taken, left, by simp, further rfl stopped⟩

theorem ahead (breaks : BreaksOff most refused tokens) (rest : List Token) :
    BreaksOff most refused (tokens ++ rest) := by
  obtain ⟨count, token, taken, left, rfl, stopped⟩ := breaks
  exact ⟨count, token, taken, left ++ rest, by simp, stopped⟩

end BreaksOff

/-- At the limit an expression breaks off at once, and below it where its operand does. -/
theorem breaksOff_operand {most nest : Nat} {bound : Precedence} {tokens : List Token}
    (nonempty : tokens ≠ [])
    (inside : nest + 1 ≤ most →
      BreaksOff most (Expr.RefusedOperand (some most) (nest + 1)) tokens) :
    BreaksOff most (Expr.Refused (some most) nest bound) tokens := by
  rcases Nat.lt_or_ge nest most with under | full
  · obtain ⟨count, token, taken, left, split, stopped⟩ := inside under
    exact ⟨count, token, taken, left, split, .operand (room_of_le under) stopped⟩
  · obtain ⟨token, rest, rfl⟩ := List.exists_cons_of_ne_nil nonempty
    exact ⟨0, token, [], rest, rfl, .tooDeep rfl full⟩

/-- The token in front of which a refusal stops is one of the tokens that break off. -/
theorem front_of_split {tokens taken left : List Token} {token : Token} (most : Nat)
    (split : tokens = taken ++ token :: left) :
    front (taken ++ [(Diagnostic.mk (.tooDeep most) token).token]) = front tokens := by
  rw [split, front_append_cons taken token left]

section Conditional

variable {most nest level : Nat} {word opening closing : Token} {edge : Edge} {condition : Expr}
  {tokens block : List Token}

/-- A conditional breaks off where its condition does. -/
theorem BreaksOff.tested (chooses : word.kind = .ifWord) (opens : opening.kind = .openParen)
    (breaks : BreaksOff most (Expr.Refused (some most) nest .lowest) tokens)
    (rest : List Token) :
    BreaksOff most (Expr.RefusedOperand (some most) nest) (word :: opening :: tokens ++ rest) :=
  (breaks.behind [word, opening] fun _ stopped =>
    .tested chooses opens (.inner stopped)).ahead rest

/-- A conditional breaks off where its first branch does. -/
theorem BreaksOff.chosen (chooses : word.kind = .ifWord) (opens : opening.kind = .openParen)
    (tested : Expr.Written edge level condition tokens) (room : nest + level ≤ most)
    (closes : closing.kind = .closeParen)
    (breaks : BreaksOff most (Block.Refused (some most) nest) block) :
    BreaksOff most (Expr.RefusedOperand (some most) nest)
      (word :: opening :: tokens ++ closing :: block) := by
  rw [List.append_cons]
  refine breaks.behind _ fun _ stopped => ?_
  rw [← List.append_cons]
  exact .chosen chooses opens tested (room_of_le room) closes stopped

end Conditional

mutual

/-- An expression that nests too deep breaks off in the first of its parts that does. -/
theorem Expr.Written.breaksOff {most : Nat} : ∀ {edge : Edge} {level : Nat} {value : Expr}
    {tokens : List Token}, Expr.Written edge level value tokens → ∀ (nest : Nat)
      {bound : Precedence}, most < nest + level → edge.Fits bound → bound < .call →
      BreaksOff most (Expr.Refused (some most) nest bound) tokens
  | _, _, _, _, .identifier _, _, _, deep, _, _ =>
    breaksOff_operand (by simp) fun under => absurd deep (Nat.not_lt.mpr under)
  | _, _, _, _, .integer _ _, _, _, deep, _, _ =>
    breaksOff_operand (by simp) fun under => absurd deep (Nat.not_lt.mpr under)
  | _, _, _, _, .boolean _, _, _, deep, _, _ =>
    breaksOff_operand (by simp) fun under => absurd deep (Nat.not_lt.mpr under)
  | _, _, _, _, .grouped opens inner _, nest, _, deep, _, _ =>
    breaksOff_operand (by simp) fun _ =>
      ((inner.breaksOff (nest + 1) (by omega) inner.fits_lowest (by decide)).behind [_]
        fun _ stopped => .grouped opens (.inner stopped)).ahead [_]
  | _, _, _, _, .unary operates inner tight, nest, _, deep, _, _ =>
    breaksOff_operand (by simp) fun _ =>
      (inner.breaksOff (nest + 1) (by omega) (Edge.fits_unary_iff.mpr tight) (by decide)).behind [_]
        fun _ stopped => .unary operates stopped
  | _, _, _, _, @Expr.Written.binary _ _ _ level _ _ _ _ _ operates first loose second tight,
      nest, bound, deep, fits, weak => by
    have loosest := (Rules.level_binary operates).2
    have taken := fits.resolve_right (Nat.not_le.mpr loosest)
    -- Only the right operand is read one level deeper than the whole.
    by_cases room : nest + level ≤ most
    · rw [List.append_cons]
      refine (second.breaksOff (nest + 1) (by omega) (.inl tight) ?_).behind _ fun _ stopped => ?_
      · exact Nat.lt_trans loosest (by decide)
      · rw [← List.append_cons]
        exact .right operates first (room_of_le room) taken loose stopped
    · exact (first.breaksOff nest (by omega) (.inl (Nat.lt_of_lt_of_le taken loose)) weak).ahead _
  | _, _, _, _, @Expr.Written.call _ _ level _ _ _ _ _ opens first tight given,
      nest, _, deep, _, weak => by
    by_cases room : nest + level ≤ most
    · have under := first.level_pos
      rw [List.append_cons]
      refine (given.breaksOff (nest + 1) (by omega) (by omega)).behind _ fun _ stopped => ?_
      rw [← List.append_cons]
      exact .arguments opens first (room_of_le room) weak tight stopped
    · exact (first.breaksOff nest (by omega) (.inl (tight ▸ weak)) weak).ahead _
  | _, _, _, _, @Expr.Written.conditional _ _ _ _ level _ _ _ _ _ chooses opens tested closes
      chosen, nest, _, deep, _, _ => breaksOff_operand (by simp) fun under => by
    by_cases room : nest + 1 + level ≤ most
    · exact (chosen.breaksOff (nest + 1) under (by omega)).chosen chooses opens tested room closes
    · exact (tested.breaksOff (nest + 1) (by omega) tested.fits_lowest (by decide)).tested
        chooses opens _
  | _, _, _, _, @Expr.Written.choice _ _ _ _ _ level inside _ _ _ _ _ _ _ chooses opens tested
      closes chosen turns left, nest, _, deep, _, _ => breaksOff_operand (by simp) fun under => by
    by_cases room : nest + 1 + level ≤ most
    · by_cases space : nest + 1 + inside ≤ most
      · rw [List.append_cons]
        refine (left.breaksOff (nest + 1) under (by omega)).behind _ fun _ stopped => ?_
        rw [← List.append_cons]
        exact .left chooses opens tested (room_of_le room) closes chosen (room_of_le space) turns
          stopped
      · exact ((chosen.breaksOff (nest + 1) under (by omega)).chosen chooses opens tested room
          closes).ahead _
    · exact ((tested.breaksOff (nest + 1) (by omega) tested.fits_lowest (by decide)).tested
        chooses opens _).ahead _
  | _, _, _, _, .function defines opens parameters does, nest, _, deep, _, _ =>
    breaksOff_operand (by simp) fun under =>
      (does.breaksOff (nest + 1) under (by omega)).behind _ fun _ stopped =>
        .does defines opens parameters stopped

theorem Expr.WrittenList.breaksOff {most : Nat} : ∀ {edge : Edge} {level : Nat}
    {values : List Expr} {tokens : List Token}, Expr.WrittenList edge level values tokens →
      ∀ (nest : Nat), most < nest + level →
      BreaksOff most (Expr.RefusedList (some most) nest) tokens
  | _, _, _, _, .single only, nest, deep => by
    obtain ⟨count, token, taken, left, split, stopped⟩ :=
      only.breaksOff nest deep only.fits_lowest (by decide)
    exact ⟨count, token, taken, left, split, .first stopped⟩
  | _, _, _, _, @Expr.WrittenList.cons _ _ _ level _ _ _ _ _ first separated rest, nest, deep => by
    by_cases room : nest + level ≤ most
    · rw [List.append_cons]
      refine (rest.breaksOff nest (by omega)).behind _ fun _ stopped => ?_
      rw [← List.append_cons]
      exact .later first (room_of_le room) separated stopped
    · exact ((first.breaksOff nest (by omega) first.fits_lowest (by decide)).behind []
        fun _ stopped => .first stopped).ahead _

theorem Expr.Listed.breaksOff {most : Nat} : ∀ {level : Nat} {values : List Expr}
    {tokens : List Token}, Expr.Listed level values tokens → ∀ (nest : Nat), nest ≤ most →
      most < nest + level → BreaksOff most (Expr.Unlisted (some most) nest) tokens
  | _, _, _, .none _, _, under, deep => absurd deep (Nat.not_lt.mpr under)
  | _, _, _, .some given _, nest, _, deep =>
    ((given.breaksOff nest deep).behind [] fun split stopped =>
      .argument (front_of_split most split ▸ given.front_ne rfl) stopped).ahead _

theorem Stmt.Written.breaksOff {most : Nat} : ∀ {ending : Option Edge} {level : Nat}
    {statement : Stmt} {tokens : List Token}, Stmt.Written ending level statement tokens →
      ∀ (nest : Nat), most < nest + level → BreaksOff most (Stmt.Refused (some most) nest) tokens
  | _, _, _, _, .declaration declares named assigns given _, nest, deep =>
    ((given.breaksOff nest deep given.fits_lowest (by decide)).behind [_, _, _] fun _ stopped =>
      .declaration declares named assigns (.inner stopped)).ahead _
  | _, _, _, _, .ret returns given _, nest, deep =>
    ((given.breaksOff nest deep given.fits_lowest (by decide)).behind [_] fun _ stopped =>
      .ret returns (.inner stopped)).ahead _
  | _, _, _, _, .expression given _, nest, deep =>
    ((given.breaksOff nest deep given.fits_lowest (by decide)).behind [] fun split stopped =>
      .expression (front_of_split most split ▸ Rules.statement_eq_none given.operand_front)
        stopped).ahead _
  | _, _, _, _, .bare given _, nest, deep =>
    (given.breaksOff nest deep given.fits_lowest (by decide)).behind [] fun split stopped =>
      .expression (front_of_split most split ▸ Rules.statement_eq_none given.operand_front)
        stopped

theorem Stmt.WrittenList.breaksOff {most : Nat} : ∀ {level : Nat} {statements : List Stmt}
    {tokens : List Token}, Stmt.WrittenList level statements tokens →
      ∀ (nest : Nat) {closer : Kind}, closer = .closeCurly ∨ closer = .endOfInput →
      nest ≤ most → most < nest + level →
      BreaksOff most (Stmt.RefusedList (some most) closer nest) tokens
  | _, _, _, .nil, _, _, _, under, deep => absurd deep (Nat.not_lt.mpr under)
  | _, _, _, @Stmt.WrittenList.cons _ level _ _ _ _ others first apart rest, nest, closer, closes,
      under, deep => by
    by_cases room : nest + level ≤ most
    · refine (rest.breaksOff nest closes under (by omega)).behind _ fun split stopped => ?_
      refine .later first (room_of_le room) ?_ stopped
      rw [front_of_split most split]
      cases others with
      | nil => simp at split
      | cons next others => exact apart next rfl
    · refine ((first.breaksOff nest (by omega)).behind [] fun split stopped => ?_).ahead _
      have inside := front_of_split most split ▸ first.front_kind
      refine .first ?_ inside.2 stopped
      rcases closes with rfl | rfl
      · exact inside.1
      · exact inside.2

theorem Block.Written.breaksOff {most : Nat} : ∀ {level : Nat} {block : Block}
    {tokens : List Token}, Block.Written level block tokens → ∀ (nest : Nat), nest ≤ most →
      most < nest + level → BreaksOff most (Block.Refused (some most) nest) tokens
  | _, _, _, @Block.Written.mk opening closing _ _ _ opens statements _, nest, under, deep => by
    obtain ⟨count, token, taken, left, rfl, stopped⟩ :=
      statements.breaksOff nest (.inl rfl) under deep
    exact ⟨count + 1, token, opening :: taken, left ++ [closing], by simp,
      .statement opens stopped⟩

end

/-- Statements that are written one behind the other are read without a diagnostic if and only if
their level is within the limit. -/
theorem Stmt.WrittenList.diagnostics_eq_nil_iff {level most : Nat} {statements : List Stmt}
    {tokens : List Token} (written : Stmt.WrittenList level statements tokens) :
    (Parser.start (some most) .standard tokens).result.2 = [] ↔ level ≤ most := by
  constructor
  · intro clean
    by_contra deep
    obtain ⟨count, token, taken, left, rfl, stopped⟩ :=
      written.breaksOff 0 (.inr rfl) (Nat.zero_le most) (by omega)
    have head := stopped.head_result (show front (token :: left) = _ from rfl)
    rw [clean] at head
    cases head
  · intro room
    rw [(written.run_whole (room_of_le (by omega))).result]

end ScriptReader
