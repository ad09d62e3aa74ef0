import Mathlib.Logic.Function.Iterate
import ScriptReader.Proofs.Window

/-! # Chains of operators

Names with binary operators between them are read to the one tree that groups them by precedence,
operators of one level to the left, whatever levels the operators were registered with. However long
the chain is, the expressions being read inside one another bind ever tighter, so there are never
more of them than there are levels.
-/

namespace ScriptReader

/-- The standard rules with binary operators registered, each with its level, the first one first. -/
def Rules.extended (registrations : List (Kind × Precedence)) : Rules :=
  registrations.foldl (fun rules (kind, level) => rules.setOperator kind level .binary) .standard

/-- What makes a chain longer: an operator and the operand behind it. -/
structure Link where
  operator : Token
  operand : Token
deriving DecidableEq

/-- The operator stands between operands, and the operand is a name. -/
structure Link.Binds (rules : Rules) (link : Link) : Prop where
  binary : rules.operator link.operator.kind = some .binary
  tight : .lowest < rules.level link.operator.kind
  name : link.operand.kind = .identifier

namespace Link

def tokens (links : List Link) : List Token :=
  links.flatMap fun link => [link.operator, link.operand]

/-- The last operand of a chain. -/
def last (first : Token) : List Link → Token
  | [] => first
  | link :: links => last link.operand links

@[simp] theorem last_append_cons (first : Token) (earlier : List Link) (link : Link)
    (links : List Link) : last first (earlier ++ link :: links) = last link.operand links := by
  induction earlier generalizing first with
  | nil => rfl
  | cons _ _ ih => exact ih _

theorem tokens_cons (link : Link) (links : List Link) :
    tokens (link :: links) = link.operator :: link.operand :: tokens links := rfl

theorem length_tokens (links : List Link) : (tokens links).length = 2 * links.length := by
  simp [tokens, List.length_flatMap, List.map_const', Nat.mul_comm]

/-- Only the last operand of a chain is left when its links are taken away. -/
theorem drop_tokens (first : Token) (links : List Link) (rest : List Token) :
    (first :: (tokens links ++ rest)).drop (2 * links.length) = last first links :: rest := by
  induction links generalizing first with
  | nil => rfl
  | cons link links ih => exact ih link.operand

end Link

/-! ### Grouping by precedence -/

/-- The operator of the link binds no tighter than any before it, and weaker than any behind it. -/
structure Link.Divides (rules : Rules) (link : Link) (earlier later : List Link) : Prop where
  least : ∀ other ∈ earlier, rules.level link.operator.kind ≤ rules.level other.operator.kind
  weaker : ∀ other ∈ later, rules.level link.operator.kind < rules.level other.operator.kind

/-- Read from left to right the expression is the chain, and every operator of it has only operators
that bind at least as tightly on its left, and only such that bind tighter on its right. -/
inductive Expr.Grouped (rules : Rules) : Expr → Token → List Link → Prop where
  | name (first : Token) : Grouped rules (.identifier (.ofToken first)) first []
  | binary {left right : Expr} {first : Token} {link : Link} {earlier later : List Link}
    (before : Grouped rules left first earlier) (behind : Grouped rules right link.operand later)
    (divides : link.Divides rules earlier later) :
    Grouped rules (.binary link.operator link.operator.literal left right) first
      (earlier ++ link :: later)

namespace Link.Divides

variable {rules : Rules} {link link' : Link} {earlier later earlier' later' between : List Link}

/-- Of two links the first one would have to be the weaker one, and no weaker than the second. -/
theorem not_both (divides : link.Divides rules earlier (between ++ link' :: later))
    (divides' : link'.Divides rules (earlier ++ link :: between) later') : False := by
  have weaker := divides.weaker link' (by simp)
  have least := divides'.least link (by simp)
  exact Nat.not_le_of_lt weaker least

/-- A chain is divided by the last one among its weakest operators, and by no other. -/
theorem unique (divides : link.Divides rules earlier later)
    (divides' : link'.Divides rules earlier' later')
    (same : earlier ++ link :: later = earlier' ++ link' :: later') :
    earlier = earlier' ∧ link = link' ∧ later = later' := by
  rcases List.append_eq_append_iff.mp same with ⟨between, rfl, split⟩ | ⟨between, rfl, split⟩
  · cases between with
    | nil => exact ⟨(List.append_nil _).symm, List.cons.inj split⟩
    | cons other between =>
      obtain ⟨rfl, rfl⟩ := List.cons.inj split
      exact (divides.not_both divides').elim
  · cases between with
    | nil => exact ⟨List.append_nil _, (List.cons.inj split).imp Eq.symm Eq.symm⟩
    | cons other between =>
      obtain ⟨rfl, rfl⟩ := List.cons.inj split
      exact (divides'.not_both divides).elim

end Link.Divides

/-- A chain is grouped in one way only. -/
theorem Expr.Grouped.unique {rules : Rules} {value other : Expr} {first : Token}
    {links : List Link} (grouped : value.Grouped rules first links)
    (grouped' : other.Grouped rules first links) : other = value := by
  induction grouped generalizing other with
  | name first =>
    generalize none : [] = links at grouped'
    cases grouped' with
    | name => rfl
    | binary => exact (List.append_ne_nil_of_right_ne_nil _ (List.cons_ne_nil _ _) none.symm).elim
  | @binary _ _ _ link earlier later _ _ divides ih ih' =>
    generalize same : earlier ++ link :: later = links at grouped'
    cases grouped' with
    | name => exact (List.append_ne_nil_of_right_ne_nil _ (List.cons_ne_nil _ _) same).elim
    | binary before behind divides' =>
      obtain ⟨rfl, rfl, rfl⟩ := divides.unique divides' same
      rw [ih before, ih' behind]

/-! ### Reading -/

/-- The number of levels that bind tighter. -/
def Precedence.above (level : Precedence) : Nat := 6 - level.rank

theorem Precedence.above_lt {weak strong : Precedence} (tighter : weak < strong) :
    strong.above < weak.above := by
  have bounded : strong.rank ≤ 6 := by cases strong <;> decide
  have : weak.rank < strong.rank := tighter
  unfold above
  omega

/-- Behind an operand and the links read already, the outcome is an expression that takes in the
links up to the first one that binds no tighter than the bound. -/
def Outcome.Gathers (outcome : Outcome (List Token) Expr) (p : Parser (List Token))
    (bound : Precedence) (first : Token) (done links : List Link) (rest : List Token) : Prop :=
  ∃ value taken left, links = taken ++ left ∧
    outcome = .accepted value
      (p.facing (Link.last first (done ++ taken) :: (Link.tokens left ++ rest))) ∧
    value.Grouped p.rules first (done ++ taken) ∧
    (∀ link ∈ taken, bound < p.rules.level link.operator.kind) ∧
    ∀ link ∈ left.head?, p.rules.level link.operator.kind ≤ bound

/-- Where a chain of at most so many links ends before some tokens, it is gathered. -/
structure Descent.Gathers (d : Descent (List Token)) (reach : Nat) (rules : Rules)
    (rest : List Token) : Prop where
  expr {p : Parser (List Token)} {bound : Precedence} {first : Token} {links : List Link}
    (ruled : p.rules = rules) (room : Room p.limit p.nesting (bound.above + 1))
    (name : first.kind = .identifier) (binds : ∀ link ∈ links, link.Binds rules)
    (short : 2 * links.length + 2 ≤ reach) :
    (d.expr bound (p.facing (first :: (Link.tokens links ++ rest)))).Gathers p bound first [] links
      rest
  operators {p : Parser (List Token)} {bound : Precedence} {value : Expr} {first : Token}
    {done links : List Link} (ruled : p.rules = rules) (room : Room p.limit p.nesting bound.above)
    (binds : ∀ link ∈ links, link.Binds rules) (short : 2 * links.length + 1 ≤ reach)
    (grouped : value.Grouped rules first done)
    (falls : ∀ link ∈ links.head?, ∀ earlier ∈ done,
      rules.level link.operator.kind ≤ rules.level earlier.operator.kind) :
    (d.operators bound value (p.facing (Link.last first done :: (Link.tokens links ++ rest)))).Gathers
      p bound first done links rest

namespace Descent.Gathers

variable {d : Descent (List Token)} {reach : Nat} {rules : Rules} {rest : List Token}
  {p : Parser (List Token)} {bound : Precedence} {first : Token}

theorem exprStep {links : List Link} (gathers : d.Gathers reach rules rest)
    (names : rules.operand .identifier = some .identifier) (ruled : p.rules = rules)
    (room : Room p.limit p.nesting (bound.above + 1)) (name : first.kind = .identifier)
    (binds : ∀ link ∈ links, link.Binds rules) (short : 2 * links.length + 1 ≤ reach) :
    (d.exprStep bound (p.facing (first :: (Link.tokens links ++ rest)))).Gathers p bound first []
      links rest := by
  obtain ⟨value, taken, left, split, ran, grouped, tighter, weaker⟩ :=
    gathers.operators (p := p.deeper) ruled room.deeper binds short (.name first)
      fun _ _ => List.forall_mem_nil _
  refine ⟨value, taken, left, split, ?_, grouped, tighter, weaker⟩
  have begins : (p.deeper.facing (first :: (Link.tokens links ++ rest))).rules.operand
      (p.deeper.facing (first :: (Link.tokens links ++ rest))).current.kind = some .identifier := by
    rw [Parser.current_facing, front_cons, name, Parser.rules_facing, Parser.rules_deeper, ruled,
      names]
  rw [exprStep_room (p.facing _) (room.mono (Nat.add_le_add_left (Nat.le_add_left 1 _) _))]
  change ((d.operand >>= d.operators bound)
    (p.deeper.facing (first :: (Link.tokens links ++ rest)))).mapAfter Parser.exitNesting = _
  have operand : d.operand (p.deeper.facing (first :: (Link.tokens links ++ rest))) =
      .accepted (.identifier (.ofToken first))
        (p.deeper.facing (first :: (Link.tokens links ++ rest))) :=
    operand_eq_operandBy begins
  rw [Parse.bind_accepted operand]
  change (d.operators bound (.identifier (.ofToken first)) (p.deeper.facing
    (Link.last first [] :: (Link.tokens links ++ rest)))).mapAfter Parser.exitNesting = _
  rw [ran]
  rfl

/-- An operator that binds tighter is taken, with the expression behind it. -/
theorem operatorsStep_link {last : Token} {link : Link} {value right : Expr} {tokens : List Token}
    {after : Parser (List Token)} (binary : p.rules.operator link.operator.kind = some .binary)
    (tight : bound < p.rules.level link.operator.kind)
    (ran : d.expr (p.rules.level link.operator.kind) (p.facing (link.operand :: tokens)) =
      .accepted right after) :
    d.operatorsStep bound value (p.facing (last :: link.operator :: link.operand :: tokens)) =
      d.operators bound (.binary link.operator link.operator.literal value right) after := by
  have read : d.operatorBy value (p.rules.level link.operator.kind) .binary
      (p.facing (link.operator :: link.operand :: tokens)) =
        .accepted (.binary link.operator link.operator.literal value right) after := by
    change d.binary _ _ _ = _
    rw [Descent.binary, Parse.current_bind, Parse.advance_bind, Parser.advance_facing,
      List.tail_cons, Parse.bind_accepted ran]
    rfl
  rw [operatorsStep_taken tight binary, Parser.advance_facing, List.tail_cons]
  exact Parse.bind_accepted read

/-- A link that binds tighter is taken, with the links on its right that bind tighter than it. -/
theorem operatorsStep_cons {link : Link} {links done : List Link} {value : Expr}
    (gathers : d.Gathers reach rules rest) (ruled : p.rules = rules)
    (room : Room p.limit p.nesting bound.above)
    (binds : ∀ other ∈ link :: links, other.Binds rules)
    (short : 2 * (link :: links).length ≤ reach) (grouped : value.Grouped rules first done)
    (falls : ∀ earlier ∈ done,
      rules.level link.operator.kind ≤ rules.level earlier.operator.kind)
    (tight : bound < rules.level link.operator.kind) :
    (d.operatorsStep bound value (p.facing
      (Link.last first done :: (Link.tokens (link :: links) ++ rest)))).Gathers p bound first done
        (link :: links) rest := by
  subst ruled
  obtain ⟨⟨binary, -, name⟩, binds⟩ := List.forall_mem_cons.mp binds
  rw [List.length_cons] at short
  have inside : Room p.limit p.nesting ((p.rules.level link.operator.kind).above + 1) :=
    room.mono (Nat.add_le_add_left (Precedence.above_lt tight) _)
  obtain ⟨right, inner, left, split, ran, behind, tighter, weaker⟩ :=
    gathers.expr (p := p) rfl inside name binds (by omega)
  rw [List.nil_append] at ran behind
  -- What is left binds no tighter than the link, and all that is read by now binds at least as much.
  have falls' : ∀ next ∈ left.head?, ∀ earlier ∈ done ++ link :: inner,
      p.rules.level next.operator.kind ≤ p.rules.level earlier.operator.kind := by
    intro next among
    have least := weaker next among
    rw [List.forall_mem_append, List.forall_mem_cons]
    exact ⟨fun earlier held => Nat.le_trans least (falls earlier held), least,
      fun earlier held => Nat.le_trans least (Nat.le_of_lt (tighter earlier held))⟩
  have fewer : left.length ≤ links.length := by simp [split]
  obtain ⟨whole, outer, left', split', ran', grouped', tighter', weaker'⟩ :=
    gathers.operators (p := p) rfl room
      (fun other among => binds other (split ▸ List.mem_append_right inner among)) (by omega)
      (grouped.binary behind ⟨falls, tighter⟩) falls'
  rw [Link.last_append_cons] at ran'
  refine ⟨whole, link :: (inner ++ outer), left', by simp [split, split'], ?_,
    by simpa using grouped', ?_, weaker'⟩
  · rw [Link.tokens_cons, List.cons_append, List.cons_append, operatorsStep_link binary tight ran,
      ran', List.append_assoc, List.cons_append]
  · rw [List.forall_mem_cons, List.forall_mem_append]
    exact ⟨tight, fun other among => Nat.lt_trans tight (tighter other among), tighter'⟩

theorem operatorsStep {links done : List Link} {value : Expr} (gathers : d.Gathers reach rules rest)
    (ruled : p.rules = rules) (ends : rules.level (front rest).kind = .lowest)
    (room : Room p.limit p.nesting bound.above) (binds : ∀ link ∈ links, link.Binds rules)
    (short : 2 * links.length ≤ reach) (grouped : value.Grouped rules first done)
    (falls : ∀ link ∈ links.head?, ∀ earlier ∈ done,
      rules.level link.operator.kind ≤ rules.level earlier.operator.kind) :
    (d.operatorsStep bound value (p.facing
      (Link.last first done :: (Link.tokens links ++ rest)))).Gathers p bound first done links
        rest := by
  -- Where nothing is taken the operand stays as it is.
  have ended (weak : rules.level (front (Link.tokens links ++ rest)).kind ≤ bound)
      (weaker : ∀ link ∈ links.head?, rules.level link.operator.kind ≤ bound) :
      (d.operatorsStep bound value (p.facing
        (Link.last first done :: (Link.tokens links ++ rest)))).Gathers p bound first done links
          rest := by
    subst ruled
    refine ⟨value, [], links, rfl, ?_, by rwa [List.append_nil], List.forall_mem_nil _, weaker⟩
    rw [List.append_nil]
    exact operatorsStep_ended weak
  cases links with
  | nil => exact ended (ends ▸ bound.lowest_le) fun _ held => nomatch held
  | cons link links =>
    by_cases tight : bound < rules.level link.operator.kind
    · exact gathers.operatorsStep_cons ruled room binds short grouped
        (falls link rfl) tight
    · have weak := Precedence.not_lt.mp tight
      refine ended weak fun other held => ?_
      cases held
      exact weak

end Descent.Gathers

theorem descent_gathers {rules : Rules} {rest : List Token}
    (names : rules.operand .identifier = some .identifier)
    (ends : rules.level (front rest).kind = .lowest) (fuel : Nat) :
    (descent fuel).Gathers fuel rules rest := by
  induction fuel with
  | zero => exact ⟨fun _ _ _ _ short => by omega, fun _ _ _ short => by omega⟩
  | succ fuel ih =>
    exact ⟨fun ruled room name binds short =>
        ih.exprStep names ruled room name binds (Nat.le_of_succ_le_succ short),
      fun ruled room binds short grouped falls =>
        ih.operatorsStep ruled ends room binds (Nat.le_of_succ_le_succ short) grouped falls⟩

/-! ### Registered operators -/

/-- Registering operators leaves the operands as they are. -/
theorem Rules.operand_extended (registrations : List (Kind × Precedence)) :
    (extended registrations).operand = standard.operand :=
  List.foldlRecOn (motive := fun rules : Rules => rules.operand = standard.operand) registrations _
    rfl fun _ same _ _ => same

namespace Parser

/-- A new parser, with operators registered, that has been advanced past some tokens. -/
def past (registrations : List (Kind × Precedence)) (before tokens : List Token) :
    Parser (List Token) :=
  advance^[before.length] (start (some standardLimit) (.extended registrations) (before ++ tokens))

theorem iterate_advance_facing (p : Parser (List Token)) (count : Nat) (tokens : List Token) :
    advance^[count] (p.facing tokens) = p.facing (tokens.drop count) := by
  induction count with
  | zero => rfl
  | succ count ih =>
    rw [Function.iterate_succ_apply', ih, advance_facing, List.tail_drop]

theorem past_eq_facing (registrations : List (Kind × Precedence)) (before tokens : List Token) :
    past registrations before tokens =
      (start (some standardLimit) (.extended registrations) []).facing tokens := by
  rw [past, start_eq_facing, iterate_advance_facing, List.drop_left]

/-- A chain of names and binary operators is accepted up to its last name, whatever its length, as
the one expression that groups it by the levels the operators were registered with. -/
theorem expr_chain (registrations : List (Kind × Precedence)) (before : List Token) (first : Token)
    (links : List Link) (rest : List Token) (name : first.kind = .identifier)
    (binds : ∀ link ∈ links, link.Binds (.extended registrations))
    (ends : (Rules.extended registrations).level (front rest).kind = .lowest) :
    ∃ value after,
      (past registrations before (first :: (Link.tokens links ++ rest))).expr .lowest =
        .accepted value after ∧
      after = advance^[2 * links.length]
        (past registrations before (first :: (Link.tokens links ++ rest))) ∧
      after.current = Link.last first links ∧
      value.Grouped (.extended registrations) first links ∧
      ∀ other, other.Grouped (.extended registrations) first links → other = value := by
  rw [past_eq_facing, iterate_advance_facing, Link.drop_tokens]
  have names : (Rules.extended registrations).operand .identifier = some .identifier := by
    rw [Rules.operand_extended]
    rfl
  have enough : 2 * links.length + 2 ≤
      ((start (some standardLimit) (.extended registrations) []).facing
        (first :: (Link.tokens links ++ rest))).fuel := by
    have length : ((first :: (Link.tokens links ++ rest)).drop 2).length =
        2 * links.length + rest.length - 1 := by
      simp [Link.length_tokens]
    change _ ≤ 4 * (((first :: (Link.tokens links ++ rest)).drop 2).length + 128) + 16
    omega
  have room : Room (some standardLimit) 0 (Precedence.lowest.above + 1) := room_of_le (by decide)
  obtain ⟨value, taken, left, split, ran, grouped, -, weaker⟩ :=
    (descent_gathers names ends _).expr (p := start (some standardLimit) (.extended registrations) [])
      rfl room name binds enough
  rw [List.nil_append] at ran grouped
  -- Nothing is left over, since every link binds tighter than the weakest level.
  cases left with
  | nil =>
    rw [List.append_nil] at split
    subst split
    exact ⟨value, _, ran, rfl, rfl, grouped, fun _ => grouped.unique⟩
  | cons link left =>
    have tight := (binds link (split ▸ List.mem_append_right taken List.mem_cons_self)).tight
    exact (Nat.not_lt_of_le (weaker link rfl) tight).elim

theorem expr_chain_caret :
    ∃ value after,
      (past [(.caret, .call)] [⟨.not, "!"⟩] [⟨.identifier, "a"⟩, ⟨.plus, "+"⟩, ⟨.identifier, "b"⟩,
        ⟨.caret, "^"⟩, ⟨.identifier, "c"⟩, ⟨.semicolon, ";"⟩]).expr .lowest =
          .accepted value after ∧
      after.current = ⟨.identifier, "c"⟩ ∧
      value.Grouped (.extended [(.caret, .call)]) ⟨.identifier, "a"⟩
        [⟨⟨.plus, "+"⟩, ⟨.identifier, "b"⟩⟩, ⟨⟨.caret, "^"⟩, ⟨.identifier, "c"⟩⟩] := by
  obtain ⟨value, after, ran, -, last, grouped, -⟩ :=
    expr_chain [(.caret, .call)] [⟨.not, "!"⟩] ⟨.identifier, "a"⟩
      [⟨⟨.plus, "+"⟩, ⟨.identifier, "b"⟩⟩, ⟨⟨.caret, "^"⟩, ⟨.identifier, "c"⟩⟩]
      [⟨.semicolon, ";"⟩] rfl
      (List.forall_mem_cons.mpr ⟨⟨rfl, by decide, rfl⟩,
        List.forall_mem_singleton.mpr ⟨rfl, by decide, rfl⟩⟩) rfl
  exact ⟨value, after, ran, last, grouped⟩

end Parser

end ScriptReader
