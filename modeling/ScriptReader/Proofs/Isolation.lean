import ScriptReader.Proofs.Braces
import ScriptReader.Proofs.Run
import ScriptReader.Proofs.Spelling

/-! # Statements on one level

Outside all blocks a semicolon ends a statement, and nothing else does. A statement that holds no
brace is therefore accepted with its semicolon or refused before it, and recovery then stops at this
very semicolon: what was read before does not matter to what stands behind.
-/

namespace ScriptReader

/-- Every semicolon among the tokens stands inside a block that they have opened. -/
def Sealed (tokens : List Token) : Prop :=
  ∀ before semicolon after, tokens = before ++ semicolon :: after →
    semicolon.kind = .semicolon → depthBehind 0 before ≠ some 0

/-- A kind that bounds neither a statement nor a block. -/
def Kind.Inline (kind : Kind) : Prop := kind.Flat ∧ kind ≠ .semicolon ∧ kind ≠ .endOfInput

instance (kind : Kind) : Decidable kind.Inline := inferInstanceAs (Decidable (_ ∧ _))

namespace Sealed

variable {token : Token} {tokens earlier : List Token} {count : Nat}

theorem nil : Sealed [] := by
  intro before semicolon after split
  simp at split

theorem concat (sealed : Sealed tokens) (other : token.kind ≠ .semicolon) :
    Sealed (tokens ++ [token]) := by
  intro before semicolon after split ends
  rcases after.eq_nil_or_concat' with rfl | ⟨after, last, rfl⟩
  · obtain ⟨-, only⟩ := List.append_inj' split rfl
    obtain rfl : token = semicolon := by simpa using only
    exact (other ends).elim
  · rw [← List.cons_append, ← List.append_assoc] at split
    exact sealed before semicolon after (List.append_inj' split rfl).1 ends

/-- Tokens that leave no block open may stand in front. -/
theorem behind (closed : Opens 0 earlier) (first : Sealed earlier) (sealed : Sealed tokens) :
    Sealed (earlier ++ tokens) := by
  intro before semicolon after split ends
  rcases List.append_eq_append_iff.mp split with ⟨more, rfl, rest⟩ | ⟨more, rfl, rest⟩
  · rw [depthBehind_append, closed]
    exact sealed more semicolon after rest ends
  · cases more with
    | nil => exact (sealed [] semicolon after rest.symm ends rfl).elim
    | cons other more =>
      obtain ⟨rfl, -⟩ := List.cons_eq_cons.mp rest
      exact first before semicolon more rfl ends

theorem single (other : token.kind ≠ .semicolon) : Sealed [token] := nil.concat other

theorem cons (flat : token.kind.Flat) (other : token.kind ≠ .semicolon) (sealed : Sealed tokens) :
    Sealed (token :: tokens) :=
  behind (.single flat) (single other) sealed

theorem cons_kind {kind : Kind} (same : token.kind = kind) (sealed : Sealed tokens)
    (inline : kind.Inline := by decide) : Sealed (token :: tokens) :=
  sealed.cons (same ▸ inline.1) (same ▸ inline.2.1)

/-- Behind the brace that opens a block everything stands inside of it. -/
theorem brace (opens : token.kind = .openCurly) (inside : Opens count tokens) :
    Sealed (token :: tokens) := by
  intro before semicolon after split ends
  cases before with
  | nil =>
    obtain ⟨rfl, -⟩ := List.cons_eq_cons.mp split
    rw [opens] at ends
    cases ends
  | cons first before =>
    rw [List.cons_append] at split
    obtain ⟨rfl, rfl⟩ := List.cons_eq_cons.mp split
    rw [Opens, depthBehind_append] at inside
    obtain ⟨depth, found, -⟩ := Option.bind_eq_some_iff.mp inside
    rw [depthBehind_open opens, depthBehind_add found 1]
    simp

theorem last_ne (sealed : Sealed tokens) (closed : Opens 0 tokens) :
    ∀ last ∈ tokens.getLast?, last.kind ≠ .semicolon := by
  rcases tokens.eq_nil_or_concat' with rfl | ⟨earlier, final, rfl⟩
  · nofun
  · rintro last found ends
    obtain rfl : final = last := by simpa using found
    refine sealed earlier final [] rfl ends ?_
    rw [Opens, depthBehind_append] at closed
    obtain ⟨depth, found, closed⟩ := Option.bind_eq_some_iff.mp closed
    rw [depthBehind_flat (by rw [ends]; decide)] at closed
    rwa [← closed]

end Sealed

theorem Rules.inline_of_operator {kind : Kind} {rule : OperatorRule}
    (operates : standard.operator kind = some rule) : kind.Inline := by
  cases kind <;> first | decide | cases operates

theorem Name.WrittenList.sealed {names : List Name} {tokens : List Token}
    (written : Name.WrittenList names tokens) : Sealed tokens := by
  induction written with
  | single named => exact .single (by simp [named])
  | cons named separated _ ih => exact .cons_kind named (.cons_kind separated ih)

theorem Name.Listed.sealed {names : List Name} {tokens : List Token}
    (listed : Name.Listed names tokens) : Sealed tokens := by
  cases listed with
  | none closes => exact .single (by simp [closes])
  | some given closes => exact given.sealed.concat (by simp [closes])

theorem Block.Written.sealed {level : Nat} {block : Block} {tokens : List Token}
    (written : Block.Written level block tokens) : Sealed tokens := by
  cases written with
  | mk opens statements closes =>
    exact (Sealed.brace opens statements.opens).concat (by simp [closes])

mutual

theorem Expr.Written.sealed : ∀ {edge : Edge} {level : Nat} {value : Expr} {tokens : List Token},
    Expr.Written edge level value tokens → Sealed tokens
  | _, _, _, _, .identifier named => .single (by simp [named])
  | _, _, _, _, .integer numeral _ => .single (by simp [numeral])
  | _, _, _, _, .boolean truth => .single (by rcases truth with truth | truth <;> simp [truth])
  | _, _, _, _, .grouped opens inner closes =>
    (Sealed.cons_kind opens inner.sealed).concat (by simp [closes])
  | _, _, _, _, .unary operates inner _ =>
    operates.elim (fun operates => .cons_kind operates inner.sealed) fun operates =>
      .cons_kind operates inner.sealed
  | _, _, _, _, .binary operates first _ second _ =>
    have ⟨flat, other, _⟩ := Rules.inline_of_operator operates
    .behind first.opens first.sealed (.cons flat other second.sealed)
  | _, _, _, _, .call opens first _ given =>
    .behind first.opens first.sealed (.cons_kind opens given.sealed)
  | _, _, _, _, .conditional chooses opens tested closes chosen =>
    .cons_kind chooses (.cons_kind opens
      (.behind tested.opens tested.sealed (.cons_kind closes chosen.sealed)))
  | _, _, _, _, .choice chooses opens tested closes chosen turns left => by
    simp only [List.cons_append, List.append_assoc]
    exact .cons_kind chooses (.cons_kind opens
      (.behind tested.opens tested.sealed (.cons_kind closes
        (.behind chosen.opens chosen.sealed (.cons_kind turns left.sealed)))))
  | _, _, _, _, .function defines opens parameters does =>
    .cons_kind defines (.cons_kind opens
      (.behind parameters.opens parameters.sealed does.sealed))

theorem Expr.WrittenList.sealed : ∀ {edge : Edge} {level : Nat} {values : List Expr}
    {tokens : List Token}, Expr.WrittenList edge level values tokens → Sealed tokens
  | _, _, _, _, .single only => only.sealed
  | _, _, _, _, .cons first separated rest =>
    .behind first.opens first.sealed (.cons_kind separated rest.sealed)

theorem Expr.Listed.sealed : ∀ {level : Nat} {values : List Expr} {tokens : List Token},
    Expr.Listed level values tokens → Sealed tokens
  | _, _, _, .none closes => .single (by simp [closes])
  | _, _, _, .some given closes => given.sealed.concat (by simp [closes])

end

/-! ### Refusals -/

theorem Name.RefusedList.sealed {diagnostic : Diagnostic} {tokens : List Token}
    (refused : Name.RefusedList diagnostic tokens) : Sealed tokens := by
  induction refused with
  | name => exact .nil
  | later named separated _ ih => exact .cons_kind named (.cons_kind separated ih)

theorem Name.Unlisted.sealed {diagnostic : Diagnostic} {tokens : List Token}
    (refused : Name.Unlisted diagnostic tokens) : Sealed tokens := by
  cases refused with
  | name _ rest => exact rest.sealed
  | close given => exact given.sealed

theorem Block.Refused.sealed {limit : Option Nat} {nest count : Nat} {diagnostic : Diagnostic}
    {tokens : List Token} (refused : Block.Refused limit nest count diagnostic tokens) :
    Sealed tokens := by
  cases refused with
  | brace => exact .nil
  | statement opens body => exact .brace opens body.halts.opens
  | close opens given => exact .brace opens given.opens

mutual

theorem Expr.Refused.sealed {limit : Option Nat} : ∀ {nest : Nat} {bound : Precedence}
    {count : Nat} {diagnostic : Diagnostic} {tokens : List Token},
    Expr.Refused limit nest bound count diagnostic tokens → Sealed tokens
  | _, _, _, _, _, .tooDeep _ _ => .nil
  | _, _, _, _, _, .operand _ inner => inner.sealed
  | _, _, _, _, _, .right operates first _ _ _ second =>
    have ⟨flat, other, _⟩ := Rules.inline_of_operator operates
    .behind first.opens first.sealed (.cons flat other second.sealed)
  | _, _, _, _, _, .arguments opens first _ _ _ given =>
    .behind first.opens first.sealed (.cons_kind opens given.sealed)

theorem Expr.RefusedOperand.sealed {limit : Option Nat} : ∀ {nest count : Nat}
    {diagnostic : Diagnostic} {tokens : List Token},
    Expr.RefusedOperand limit nest count diagnostic tokens → Sealed tokens
  | _, _, _, _, .start _ => .nil
  | _, _, _, _, .integer _ _ => .nil
  | _, _, _, _, .unary operates inner =>
    operates.elim (fun operates => .cons_kind operates inner.sealed) fun operates =>
      .cons_kind operates inner.sealed
  | _, _, _, _, .grouped opens inner => .cons_kind opens inner.sealed
  | _, _, _, _, .condition chooses _ => .single (by simp [chooses])
  | _, _, _, _, .tested chooses opens inner => .cons_kind chooses (.cons_kind opens inner.sealed)
  | _, _, _, _, .chosen chooses opens tested _ closes inner =>
    .cons_kind chooses (.cons_kind opens
      (.behind tested.opens tested.sealed (.cons_kind closes inner.sealed)))
  | _, _, _, _, .left chooses opens tested _ closes chosen _ turns inner => by
    simp only [List.cons_append, List.append_assoc]
    exact .cons_kind chooses (.cons_kind opens
      (.behind tested.opens tested.sealed (.cons_kind closes
        (.behind chosen.opens chosen.sealed (.cons_kind turns inner.sealed)))))
  | _, _, _, _, .function defines _ => .single (by simp [defines])
  | _, _, _, _, .parameters defines opens inner =>
    .cons_kind defines (.cons_kind opens inner.sealed)
  | _, _, _, _, .does defines opens parameters inner =>
    .cons_kind defines (.cons_kind opens
      (.behind parameters.opens parameters.sealed inner.sealed))

theorem Expr.Unclosed.sealed {limit : Option Nat} : ∀ {nest : Nat} {closer : Kind} {count : Nat}
    {diagnostic : Diagnostic} {tokens : List Token},
    Expr.Unclosed limit nest closer count diagnostic tokens → Sealed tokens
  | _, _, _, _, _, .inner inner => inner.sealed
  | _, _, _, _, _, .close given _ _ _ => given.sealed

theorem Expr.RefusedList.sealed {limit : Option Nat} : ∀ {nest count : Nat}
    {diagnostic : Diagnostic} {tokens : List Token},
    Expr.RefusedList limit nest count diagnostic tokens → Sealed tokens
  | _, _, _, _, .first inner => inner.sealed
  | _, _, _, _, .later first _ separated rest =>
    .behind first.opens first.sealed (.cons_kind separated rest.sealed)

theorem Expr.Unlisted.sealed {limit : Option Nat} : ∀ {nest count : Nat}
    {diagnostic : Diagnostic} {tokens : List Token},
    Expr.Unlisted limit nest count diagnostic tokens → Sealed tokens
  | _, _, _, _, .argument _ rest => rest.sealed
  | _, _, _, _, .close given _ _ _ _ => given.sealed

end

/-- A refused statement never gets as far as the semicolon that would end it. -/
theorem Stmt.Refused.sealed {limit : Option Nat} {nest count : Nat} {diagnostic : Diagnostic}
    {tokens : List Token} (refused : Stmt.Refused limit nest count diagnostic tokens) :
    Sealed tokens := by
  cases refused with
  | name declares => exact .single (by simp [declares])
  | assign declares named => exact .cons_kind declares (.single (by simp [named]))
  | declaration declares named assigns inner =>
    exact .cons_kind declares (.cons_kind named (.cons_kind assigns inner.sealed))
  | ret returns inner => exact .cons_kind returns inner.sealed
  | expression _ inner => exact inner.sealed
  | semicolon given => exact given.sealed

/-! ### Expressions that end with a block -/

theorem Block.Written.exists_eq_cons {level : Nat} {block : Block} {tokens : List Token}
    (written : Block.Written level block tokens) :
    ∃ opening rest, tokens = opening :: rest ∧ opening.kind = .openCurly := by
  cases written with
  | mk opens => exact ⟨_, _, rfl, opens⟩

/-- An expression that ends with a block holds the brace that opens it. -/
theorem Expr.Written.mem_openCurly : ∀ {edge : Edge} {level : Nat} {value : Expr}
    {tokens : List Token}, Expr.Written edge level value tokens → value.endsWithBlock = true →
      ∃ token ∈ tokens, token.kind = .openCurly
  | _, _, _, _, .identifier _, block => by cases block
  | _, _, _, _, .integer _ _, block => by cases block
  | _, _, _, _, .boolean _, block => by cases block
  | _, _, _, _, .unary _ _ _, block => by cases block
  | _, _, _, _, .binary _ _ _ _ _, block => by cases block
  | _, _, _, _, .call _ _ _ _, block => by cases block
  | _, _, _, _, .grouped _ inner _, block => by
    obtain ⟨token, among, opens⟩ := inner.mem_openCurly block
    exact ⟨token, by simp [among], opens⟩
  | _, _, _, _, .conditional _ _ _ _ chosen, _ => by
    obtain ⟨opening, rest, rfl, opens⟩ := chosen.exists_eq_cons
    exact ⟨opening, by simp, opens⟩
  | _, _, _, _, .choice _ _ _ _ chosen _ _, _ => by
    obtain ⟨opening, rest, rfl, opens⟩ := chosen.exists_eq_cons
    exact ⟨opening, by simp, opens⟩
  | _, _, _, _, .function _ _ _ does, _ => by
    obtain ⟨opening, rest, rfl, opens⟩ := does.exists_eq_cons
    exact ⟨opening, by simp, opens⟩

/-- Without braces, a statement ends in its semicolon. -/
theorem Stmt.Written.exists_semicolon {ending : Option Edge} {level : Nat} {statement : Stmt}
    {tokens : List Token} (written : Stmt.Written ending level statement tokens)
    (flat : ∀ token ∈ tokens, token.kind.Flat) :
    ending = none ∧ ∃ earlier semicolon, tokens = earlier ++ [semicolon] ∧
      semicolon.kind = .semicolon := by
  cases written with
  | declaration _ _ _ _ ends => exact ⟨rfl, _, _, rfl, ends⟩
  | ret _ _ ends => exact ⟨rfl, _, _, rfl, ends⟩
  | expression _ ends => exact ⟨rfl, _, _, rfl, ends⟩
  | bare given block =>
    obtain ⟨token, among, opens⟩ := given.mem_openCurly block
    exact ((flat token among).1 opens).elim

/-! ### Segments -/

/-- The tokens up to and with the first semicolon, without a brace or an end of input. -/
def Segment (tokens : List Token) : Prop :=
  ∃ inner semicolon, tokens = inner ++ [semicolon] ∧ semicolon.kind = .semicolon ∧
    ∀ token ∈ inner, token.kind.Inline

/-- Outside all blocks, recovery stops at the first semicolon. -/
theorem resumed_segment {inner : List Token} {semicolon : Token}
    (inline : ∀ token ∈ inner, token.kind.Inline) (ends : semicolon.kind = .semicolon)
    (rest : List Token) : resumed 0 (inner ++ semicolon :: rest) = rest := by
  suffices skipped : lastSkipped 0 (inner ++ semicolon :: rest) = semicolon :: rest by
    rw [resumed, skipped]
    rfl
  induction inner with
  | nil =>
    rw [List.nil_append, lastSkipped, ends]
    rfl
  | cons token inner ih =>
    obtain ⟨flat, other, present⟩ := inline token (.head _)
    rw [List.cons_append, lastSkipped]
    split
    · next kind => exact (present kind).elim
    · next kind => exact (other kind).elim
    · next kind => exact (flat.1 kind).elim
    · next kind => exact (flat.2 kind).elim
    · exact ih fun token among => inline token (.tail _ among)

/-- What a parser faces that has read some tokens and blames the next one goes on with the rest. -/
theorem exists_blamed_eq_append (diagnostic : Diagnostic) (tokens rest : List Token) :
    ∃ held, blamed diagnostic tokens rest = held ++ rest ∧ held ⊆ tokens := by
  unfold blamed
  split
  · refine ⟨_, rfl, fun token among => ?_⟩
    exact List.mem_of_getLast? (by simpa using among)
  · exact ⟨[], rfl, List.nil_subset _⟩

section Boundary

variable {limit : Option Nat} {inner taken left : List Token} {semicolon : Token}

theorem flat_segment (inline : ∀ token ∈ inner, token.kind.Inline)
    (ends : semicolon.kind = .semicolon) : ∀ token ∈ inner ++ [semicolon], token.kind.Flat := by
  rw [List.forall_mem_append, List.forall_mem_singleton, ends]
  exact ⟨fun token among => (inline token among).1, by decide⟩

/-- A statement at the beginning of a segment takes it as a whole. -/
theorem Stmt.Written.eq_segment {ending : Option Edge} {level : Nat} {statement : Stmt}
    (written : Stmt.Written ending level statement taken)
    (split : inner ++ [semicolon] = taken ++ left)
    (inline : ∀ token ∈ inner, token.kind.Inline) (ends : semicolon.kind = .semicolon) :
    ending = none ∧ taken = inner ++ [semicolon] := by
  have within : taken ⊆ inner ++ [semicolon] := split ▸ List.subset_append_left ..
  obtain ⟨rfl, earlier, final, rfl, closes⟩ :=
    written.exists_semicolon fun token among => flat_segment inline ends token (within among)
  refine ⟨rfl, ?_⟩
  -- The only semicolon of the segment is its last token, so nothing is left behind it.
  rcases left.eq_nil_or_concat' with rfl | ⟨left, last, rfl⟩
  · rw [split, List.append_nil]
  · rw [← List.append_assoc] at split
    obtain ⟨rfl, -⟩ := List.append_inj' split rfl
    exact ((inline final (by simp)).2.1 closes).elim

/-- A statement that is refused in a segment is given up to the end of the segment. -/
theorem Stmt.Refused.run_segment {count : Nat} {diagnostic : Diagnostic}
    (refused : Stmt.Refused limit 0 count diagnostic taken)
    (blame : front left = diagnostic.token) (split : inner ++ [semicolon] = taken ++ left)
    (inline : ∀ token ∈ inner, token.kind.Inline) (ends : semicolon.kind = .semicolon)
    {rest : List Token} {more : List Stmt} {others : List Diagnostic}
    (behind : Run limit rest more others) :
    Run limit (inner ++ [semicolon] ++ rest) more (diagnostic :: others) := by
  have within : taken ⊆ inner ++ [semicolon] := split ▸ List.subset_append_left ..
  have closed : Opens 0 taken :=
    .of_flat fun token among => flat_segment inline ends token (within among)
  obtain rfl := refused.halts.opens.unique closed
  -- The refusal never takes the semicolon, so recovery still meets it.
  rcases left.eq_nil_or_concat' with rfl | ⟨left, last, rfl⟩
  · rw [List.append_nil] at split
    exact (refused.sealed.last_ne closed semicolon (by simp [← split]) ends).elim
  rw [← List.append_assoc] at split
  obtain ⟨rfl, only⟩ := List.append_inj' split rfl
  obtain rfl : semicolon = last := by simpa using only
  have blame : front (left ++ semicolon :: rest) = diagnostic.token := by
    rw [front_append_cons, blame]
  have present : (front (taken ++ (left ++ semicolon :: rest))).kind ≠ .endOfInput := by
    rw [← List.append_assoc, front_append_cons]
    refine Plain.front ?_ (by simp)
    refine plain_append.mpr ⟨fun token among => (inline token among).2.2, ?_⟩
    simp [Plain, ends]
  have resumes : resumed 0 (blamed diagnostic taken (left ++ semicolon :: rest)) = rest := by
    obtain ⟨held, faces, among⟩ :=
      exists_blamed_eq_append diagnostic taken (left ++ semicolon :: rest)
    rw [faces, ← List.append_assoc]
    refine resumed_segment (fun token found => inline token ?_) ends rest
    rw [List.mem_append] at found ⊢
    exact found.imp_left fun found => among found
  rw [List.append_assoc, List.append_assoc]
  exact .recovery refused blame present (resumes.symm ▸ behind)

end Boundary

/-- A segment is read as one statement, or refused with one diagnostic, whatever follows it. -/
theorem Segment.run {limit : Option Nat} {segment : List Token} (bounded : Segment segment) :
    ∃ statements diagnostics, statements.length + diagnostics.length = 1 ∧
      ∀ {rest more others}, Run limit rest more others →
        Run limit (segment ++ rest) (statements ++ more) (diagnostics ++ others) := by
  obtain ⟨inner, semicolon, rfl, ends, inline⟩ := bounded
  have standard : (Parser.start limit .standard ([] : List Token)).rules = .standard := rfl
  cases ran : ((Parser.start limit .standard []).facing (inner ++ [semicolon])).statement with
  | accepted statement after =>
    obtain ⟨ending, level, taken, left, split, written, room, -, -⟩ :=
      Parser.written_of_accepted standard ran
    obtain ⟨rfl, rfl⟩ := written.eq_segment split inline ends
    exact ⟨[statement], [], rfl, fun behind => .statement written room nofun behind⟩
  | rejected diagnostic after =>
    obtain ⟨count, taken, left, split, blame, refused, -⟩ :=
      Parser.refused_of_rejected standard ran
    exact ⟨[], [diagnostic], rfl, fun behind =>
      refused.run_segment blame split inline ends behind⟩
  | unfinished => exact (Parser.statement_ne_unfinished standard ran).elim

/-- Two answers of parsing, one behind the other. -/
def joined (first second : Program × List Diagnostic) : Program × List Diagnostic :=
  (⟨first.1.statements ++ second.1.statements⟩, first.2 ++ second.2)

@[simp] theorem joined_nil (answer : Program × List Diagnostic) :
    joined answer ({}, []) = answer := by
  simp [joined]

@[simp] theorem nil_joined (answer : Program × List Diagnostic) :
    joined ({}, []) answer = answer := by
  simp [joined]

theorem joined_assoc (first second third : Program × List Diagnostic) :
    joined (joined first second) third = joined first (joined second third) := by
  simp [joined]

/-- The number of statements and diagnostics of an answer. -/
def size (answer : Program × List Diagnostic) : Nat :=
  answer.1.statements.length + answer.2.length

theorem size_joined (first second : Program × List Diagnostic) :
    size (joined first second) = size first + size second := by
  simp only [size, joined, List.length_append]
  omega

theorem Run.nil (limit : Option Nat) : Run limit [] [] [] := .ended rfl

namespace Segment

variable {segment : List Token}

/-- A segment has one statement or one diagnostic, and what follows it is read as if it stood
alone. -/
theorem size_parse_and_parse_append (bounded : Segment segment) :
    size (parse segment) = 1 ∧
      ∀ rest, parse (segment ++ rest) = joined (parse segment) (parse rest) := by
  obtain ⟨statements, diagnostics, one, run⟩ :=
    @Segment.run (some Parser.standardLimit) segment bounded
  have alone : parse segment = (⟨statements⟩, diagnostics) := by
    simpa using (run (.nil _)).parse
  refine ⟨alone ▸ one, fun rest => ?_⟩
  rw [(run (parse_run rest)).parse, alone]
  rfl

theorem countP_semicolon (bounded : Segment segment) :
    segment.countP (fun token => token.kind = .semicolon) = 1 := by
  obtain ⟨inner, semicolon, rfl, ends, inline⟩ := bounded
  rw [List.countP_append, List.countP_eq_zero.mpr fun token among => by
    simpa using (inline token among).2.1]
  simp [ends]

end Segment

/-- Tokens that end in a semicolon are a list of segments, unless a brace or an end of input stands
among them. -/
theorem exists_segments {earlier : List Token} {semicolon : Token}
    (ends : semicolon.kind = .semicolon)
    (free : ∀ token ∈ earlier, token.kind.Flat ∧ token.kind ≠ .endOfInput) :
    ∃ segments : List (List Token), segments.flatten = earlier ++ [semicolon] ∧
      ∀ segment ∈ segments, Segment segment := by
  induction earlier with
  | nil => exact ⟨[[semicolon]], rfl, by simpa using ⟨[], semicolon, rfl, ends, nofun⟩⟩
  | cons token earlier ih =>
    obtain ⟨segments, whole, bounded⟩ := ih fun token among => free token (.tail _ among)
    obtain ⟨flat, present⟩ := free token (.head _)
    by_cases other : token.kind = .semicolon
    · refine ⟨[token] :: segments, by simp [whole], ?_⟩
      rw [List.forall_mem_cons]
      exact ⟨⟨[], token, rfl, other, nofun⟩, bounded⟩
    · cases segments with
      | nil => simp at whole
      | cons first segments =>
        refine ⟨(token :: first) :: segments, by simpa using whole, ?_⟩
        rw [List.forall_mem_cons] at bounded ⊢
        obtain ⟨⟨inner, final, rfl, closes, inline⟩, bounded⟩ := bounded
        refine ⟨⟨token :: inner, final, rfl, closes, ?_⟩, bounded⟩
        exact List.forall_mem_cons.mpr ⟨⟨flat, other, present⟩, inline⟩

/-- Segments are read one by one, and what follows them is read as if it stood alone. -/
theorem parse_segments {segments : List (List Token)}
    (bounded : ∀ segment ∈ segments, Segment segment) (rest : List Token) :
    parse (segments.flatten ++ rest) =
      joined ((segments.map parse).foldr joined ({}, [])) (parse rest) := by
  induction segments with
  | nil => exact (nil_joined _).symm
  | cons segment segments ih =>
    rw [List.forall_mem_cons] at bounded
    rw [List.flatten_cons, List.append_assoc, bounded.1.size_parse_and_parse_append.2, ih bounded.2]
    exact (joined_assoc ..).symm

theorem size_segments {segments : List (List Token)}
    (bounded : ∀ segment ∈ segments, Segment segment) :
    size ((segments.map parse).foldr joined ({}, [])) =
      segments.flatten.countP fun token => token.kind = .semicolon := by
  induction segments with
  | nil => rfl
  | cons segment segments ih =>
    rw [List.forall_mem_cons] at bounded
    rw [List.flatten_cons, List.countP_append, bounded.1.countP_semicolon, ← ih bounded.2,
      ← bounded.1.size_parse_and_parse_append.1]
    exact size_joined ..

/-- Statements that end in semicolons, without a brace among them, are read apart from what follows
and from one another: each semicolon ends a statement that is read or one that is refused, and
whatever is wrong with one of them, the others are read as if they stood alone. -/
theorem parse_terminated (tokens rest : List Token)
    (free : ∀ token ∈ tokens,
      token.kind ≠ .openCurly ∧ token.kind ≠ .closeCurly ∧ token.kind ≠ .endOfInput)
    (ends : tokens.getLast?.map Token.kind = some .semicolon) :
    parse (tokens ++ rest) = joined (parse tokens) (parse rest) ∧
    (parse tokens).1.statements.length + (parse tokens).2.length =
      tokens.countP (fun token => token.kind = .semicolon) ∧
    ∃ segments : List (List Token), segments.flatten = tokens ∧
      (∀ segment ∈ segments,
        segment.countP (fun token => token.kind = .semicolon) = 1 ∧
        segment.getLast?.map Token.kind = some .semicolon ∧
        (parse segment).1.statements.length + (parse segment).2.length = 1) ∧
      parse tokens = (segments.map parse).foldr joined ({}, []) := by
  obtain ⟨earlier, semicolon, rfl, closes⟩ : ∃ earlier semicolon,
      tokens = earlier ++ [semicolon] ∧ semicolon.kind = .semicolon := by
    rcases tokens.eq_nil_or_concat' with rfl | ⟨earlier, semicolon, rfl⟩
    · cases ends
    · exact ⟨earlier, semicolon, rfl, by simpa using ends⟩
  obtain ⟨segments, whole, bounded⟩ := exists_segments closes fun token among =>
    have ⟨opens, shuts, present⟩ := free token (List.mem_append_left _ among)
    ⟨⟨opens, shuts⟩, present⟩
  have read := parse_segments bounded
  have alone := read []
  rw [List.append_nil, whole, (Run.nil _).parse,
    joined_nil] at alone
  refine ⟨?_, ?_, segments, whole, ?_, alone⟩
  · rw [alone, ← read rest, whole]
  · rw [← whole, ← size_segments bounded, whole, alone]
    rfl
  · intro segment among
    have bound := bounded segment among
    refine ⟨bound.countP_semicolon, ?_, bound.size_parse_and_parse_append.1⟩
    obtain ⟨inner, final, rfl, closes, -⟩ := bound
    simp [closes]

/-- A declaration without a name does not matter to what stands behind its semicolon. -/
theorem parse_terminated_unnamed :
    parse ([Token.varWord, .assign, .semicolon] ++ [.identifier "y", .semicolon]) =
      joined (parse [Token.varWord, .assign, .semicolon])
        (parse [Token.identifier "y", .semicolon]) :=
  (parse_terminated [.varWord, .assign, .semicolon] [.identifier "y", .semicolon] (by decide)
    (by decide)).1

end ScriptReader
