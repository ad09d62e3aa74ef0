import Mathlib.Data.List.Basic
import Mathlib.Data.List.Induction
import ScriptReader.Proofs.Refusal

/-! # Braces

Every brace of a writing belongs to a block of it, so that a writing leaves no block open, and a
refusal leaves open as many as it says. The brace that closes the outermost of these is found by
counting braces alone.
-/

namespace ScriptReader

/-- The number of open blocks behind the tokens, unless a brace closes more than are open. -/
def depthBehind : Nat → List Token → Option Nat
  | depth, [] => some depth
  | depth, token :: rest =>
    if token.kind = .openCurly then depthBehind (depth + 1) rest
    else if token.kind = .closeCurly then
      if depth = 0 then none else depthBehind (depth - 1) rest
    else depthBehind depth rest

/-- What follows the brace that closes the outermost of the open blocks. -/
def behindClosing : Nat → List Token → Option (List Token)
  | _, [] => none
  | depth, token :: rest =>
    if token.kind = .openCurly then behindClosing (depth + 1) rest
    else if token.kind = .closeCurly then
      if depth ≤ 1 then some rest else behindClosing (depth - 1) rest
    else if token.kind = .endOfInput then none
    else behindClosing depth rest

/-- A kind that is none of the two braces. -/
def Kind.Flat (kind : Kind) : Prop := kind ≠ .openCurly ∧ kind ≠ .closeCurly

instance (kind : Kind) : Decidable kind.Flat := inferInstanceAs (Decidable (_ ∧ _))

section Depth

variable {token : Token} {tokens rest : List Token} {depth : Nat}

theorem depthBehind_flat (flat : token.kind.Flat) (depth : Nat) (rest : List Token) :
    depthBehind depth (token :: rest) = depthBehind depth rest := by
  rw [depthBehind, if_neg flat.1, if_neg flat.2]

theorem depthBehind_open (opens : token.kind = .openCurly) (depth : Nat) (rest : List Token) :
    depthBehind depth (token :: rest) = depthBehind (depth + 1) rest := by
  rw [depthBehind, if_pos opens]

theorem depthBehind_close (closes : token.kind = .closeCurly) (depth : Nat) (rest : List Token) :
    depthBehind (depth + 1) (token :: rest) = depthBehind depth rest := by
  rw [depthBehind, if_neg (by simp [closes]), if_pos closes, if_neg (Nat.succ_ne_zero depth)]
  rfl

theorem depthBehind_close_zero (closes : token.kind = .closeCurly) (rest : List Token) :
    depthBehind 0 (token :: rest) = none := by
  rw [depthBehind, if_neg (by simp [closes]), if_pos closes, if_pos rfl]

/-- Every token opens a block, closes one or does neither. -/
theorem Kind.brace_cases (kind : Kind) :
    kind = .openCurly ∨ kind = .closeCurly ∨ kind.Flat := by
  by_cases opens : kind = .openCurly
  · exact .inl opens
  · by_cases closes : kind = .closeCurly
    · exact .inr (.inl closes)
    · exact .inr (.inr ⟨opens, closes⟩)

theorem depthBehind_append (depth : Nat) (tokens rest : List Token) :
    depthBehind depth (tokens ++ rest) =
      (depthBehind depth tokens).bind fun depth => depthBehind depth rest := by
  induction tokens generalizing depth with
  | nil => rfl
  | cons token tokens ih =>
    rw [List.cons_append]
    rcases token.kind.brace_cases with opens | closes | flat
    · rw [depthBehind_open opens, depthBehind_open opens, ih]
    · cases depth with
      | zero => rw [depthBehind_close_zero closes, depthBehind_close_zero closes]; rfl
      | succ depth => rw [depthBehind_close closes, depthBehind_close closes, ih]
    · rw [depthBehind_flat flat, depthBehind_flat flat, ih]

/-- Blocks that are open around the tokens do not matter to them. -/
theorem depthBehind_add {after : Nat} (found : depthBehind depth tokens = some after)
    (around : Nat) :
    depthBehind (depth + around) tokens = some (after + around) := by
  induction tokens generalizing depth with
  | nil => simpa [depthBehind] using found
  | cons token tokens ih =>
    rcases token.kind.brace_cases with opens | closes | flat
    · rw [depthBehind_open opens] at found ⊢
      rw [Nat.add_right_comm]
      exact ih found
    · cases depth with
      | zero => rw [depthBehind_close_zero closes] at found; cases found
      | succ depth =>
        rw [depthBehind_close closes] at found
        rw [Nat.add_right_comm, depthBehind_close closes]
        exact ih found
    · rw [depthBehind_flat flat] at found ⊢
      exact ih found

end Depth

/-- The tokens leave so many blocks open, and close none but their own. -/
def Opens (count : Nat) (tokens : List Token) : Prop := depthBehind 0 tokens = some count

namespace Opens

variable {token : Token} {tokens rest : List Token} {count more : Nat}

theorem nil : Opens 0 [] := rfl

theorem append (opens : Opens count tokens) (others : Opens more rest) :
    Opens (count + more) (tokens ++ rest) := by
  have found := depthBehind_add others count
  rw [Nat.zero_add, Nat.add_comm] at found
  rw [Opens, depthBehind_append, opens]
  exact found

theorem cons (flat : token.kind.Flat) (opens : Opens count tokens) :
    Opens count (token :: tokens) :=
  (depthBehind_flat flat 0 tokens).trans opens

theorem single (flat : token.kind.Flat) : Opens 0 [token] := nil.cons flat

theorem cons_kind {kind : Kind} (same : token.kind = kind) (opens : Opens count tokens)
    (flat : kind.Flat := by decide) : Opens count (token :: tokens) :=
  opens.cons (same ▸ flat)

theorem single_kind {kind : Kind} (same : token.kind = kind) (flat : kind.Flat := by decide) :
    Opens 0 [token] :=
  nil.cons_kind same flat

/-- Tokens that leave none open, with others behind them. -/
theorem behind (closed : Opens 0 tokens) (opens : Opens count rest) :
    Opens count (tokens ++ rest) := by
  have whole := closed.append opens
  rwa [Nat.zero_add] at whole

theorem brace (kind : token.kind = .openCurly) (opens : Opens count tokens) :
    Opens (count + 1) (token :: tokens) := by
  rw [Opens, depthBehind_open kind]
  exact depthBehind_add opens 1

theorem braces {closing : Token} (kind : token.kind = .openCurly) (opens : Opens 0 tokens)
    (closes : closing.kind = .closeCurly) : Opens 0 (token :: tokens ++ [closing]) := by
  rw [Opens, depthBehind_append, opens.brace kind]
  exact depthBehind_close closes 0 []

/-- Closed tokens do not end in an opening brace. -/
theorem last_ne (closed : Opens 0 tokens) : ∀ last ∈ tokens.getLast?, last.kind ≠ .openCurly := by
  rcases tokens.eq_nil_or_concat' with rfl | ⟨earlier, final, rfl⟩
  · nofun
  · rintro last found kind
    obtain rfl : final = last := by simpa using found
    rw [Opens, depthBehind_append] at closed
    cases before : depthBehind 0 earlier with
    | none => rw [before] at closed; cases closed
    | some depth =>
      rw [before] at closed
      change depthBehind depth [final] = some 0 at closed
      rw [depthBehind_open kind] at closed
      cases closed

end Opens

theorem Rules.flat_of_operator {kind : Kind} {rule : OperatorRule}
    (operates : standard.operator kind = some rule) : kind.Flat := by
  cases kind <;> first | decide | cases operates

theorem Name.WrittenList.opens {names : List Name} {tokens : List Token}
    (written : Name.WrittenList names tokens) : Opens 0 tokens := by
  induction written with
  | single named => exact .single_kind named
  | cons named separated _ ih =>
    exact .cons_kind named (.cons_kind separated ih)

theorem Name.Listed.opens {names : List Name} {tokens : List Token}
    (listed : Name.Listed names tokens) : Opens 0 tokens := by
  cases listed with
  | none closes => exact .single_kind closes
  | some given closes => exact given.opens.behind (.single_kind closes)

mutual

theorem Expr.Written.opens : ∀ {edge : Edge} {level : Nat} {value : Expr} {tokens : List Token},
    Expr.Written edge level value tokens → Opens 0 tokens
  | _, _, _, _, .identifier named => .single_kind named
  | _, _, _, _, .integer numeral _ => .single_kind numeral
  | _, _, _, _, .boolean truth =>
    truth.elim (fun truth => .single_kind truth) fun truth => .single_kind truth
  | _, _, _, _, .grouped opens inner closes =>
    .cons_kind opens
      (inner.opens.behind (.single_kind closes))
  | _, _, _, _, .unary operates inner _ =>
    operates.elim (fun operates => .cons_kind operates inner.opens) fun operates =>
      .cons_kind operates inner.opens
  | _, _, _, _, .binary operates first _ second _ =>
    first.opens.behind (.cons (Rules.flat_of_operator operates) second.opens)
  | _, _, _, _, .call opens first _ given =>
    first.opens.behind (.cons_kind opens given.opens)
  | _, _, _, _, .conditional chooses opens tested closes chosen =>
    .cons_kind chooses (.cons_kind opens
      (tested.opens.behind (.cons_kind closes chosen.opens)))
  | _, _, _, _, .choice chooses opens tested closes chosen turns left => by
    simp only [List.cons_append, List.append_assoc]
    exact .cons_kind chooses (.cons_kind opens
      (tested.opens.behind (.cons_kind closes
        (chosen.opens.behind (.cons_kind turns left.opens)))))
  | _, _, _, _, .function defines opens parameters does =>
    .cons_kind defines (.cons_kind opens
      (parameters.opens.behind does.opens))

theorem Expr.WrittenList.opens : ∀ {edge : Edge} {level : Nat} {values : List Expr}
    {tokens : List Token}, Expr.WrittenList edge level values tokens → Opens 0 tokens
  | _, _, _, _, .single only => only.opens
  | _, _, _, _, .cons first separated rest =>
    first.opens.behind (.cons_kind separated rest.opens)

theorem Expr.Listed.opens : ∀ {level : Nat} {values : List Expr} {tokens : List Token},
    Expr.Listed level values tokens → Opens 0 tokens
  | _, _, _, .none closes => .single_kind closes
  | _, _, _, .some given closes => given.opens.behind (.single_kind closes)

theorem Stmt.Written.opens : ∀ {ending : Option Edge} {level : Nat} {statement : Stmt}
    {tokens : List Token}, Stmt.Written ending level statement tokens → Opens 0 tokens
  | _, _, _, _, .declaration declares named assigns given ends =>
    .cons_kind declares (.cons_kind named
      (.cons_kind assigns
        (given.opens.behind (.single_kind ends))))
  | _, _, _, _, .ret returns given ends =>
    .cons_kind returns (given.opens.behind (.single_kind ends))
  | _, _, _, _, .expression given ends => given.opens.behind (.single_kind ends)
  | _, _, _, _, .bare given _ => given.opens

theorem Stmt.WrittenList.opens : ∀ {level : Nat} {body : List Stmt} {tokens : List Token},
    Stmt.WrittenList level body tokens → Opens 0 tokens
  | _, _, _, .nil => .nil
  | _, _, _, .cons first _ rest => first.opens.behind rest.opens

theorem Block.Written.opens : ∀ {level : Nat} {block : Block} {tokens : List Token},
    Block.Written level block tokens → Opens 0 tokens
  | _, _, _, .mk opens statements closes => .braces opens statements.opens closes

end

/-- The tokens of a refusal leave blocks open, and a refusal at the lookahead is not noticed right
behind the brace that opens one. -/
structure Halts (count : Nat) (diagnostic : Diagnostic) (tokens : List Token) : Prop where
  opens : Opens count tokens
  last : diagnostic.cause.atLookahead = true → ∀ last ∈ tokens.getLast?, last.kind ≠ .openCurly

namespace Halts

variable {count : Nat} {diagnostic : Diagnostic} {token : Token} {tokens earlier : List Token}

theorem stop (closed : Opens 0 tokens) : Halts 0 diagnostic tokens :=
  ⟨closed, fun _ => closed.last_ne⟩

theorem behind (closed : Opens 0 earlier) (halts : Halts count diagnostic tokens) :
    Halts count diagnostic (earlier ++ tokens) := by
  refine ⟨closed.behind halts.opens, fun late last found => ?_⟩
  rw [List.getLast?_append] at found
  cases final : tokens.getLast? with
  | none =>
    rw [final] at found
    exact closed.last_ne last found
  | some other =>
    rw [final] at found
    obtain rfl : other = last := by simpa using found
    exact halts.last late other final

theorem cons (flat : token.kind.Flat) (halts : Halts count diagnostic tokens) :
    Halts count diagnostic (token :: tokens) :=
  halts.behind (.single flat)

theorem cons_kind {kind : Kind} (same : token.kind = kind) (halts : Halts count diagnostic tokens)
    (flat : kind.Flat := by decide) : Halts count diagnostic (token :: tokens) :=
  halts.cons (same ▸ flat)

theorem brace (kind : token.kind = .openCurly) (halts : Halts count diagnostic tokens)
    (nonempty : diagnostic.cause.atLookahead = true → tokens ≠ []) :
    Halts (count + 1) diagnostic (token :: tokens) := by
  refine ⟨halts.opens.brace kind, fun late last found => ?_⟩
  refine halts.last late last ?_
  rwa [List.getLast?_cons_of_ne_nil (nonempty late)] at found

end Halts

theorem Name.RefusedList.halts {diagnostic : Diagnostic} {tokens : List Token}
    (refused : Name.RefusedList diagnostic tokens) : Halts 0 diagnostic tokens := by
  induction refused with
  | name => exact .stop .nil
  | later named separated _ ih => exact .cons_kind named (.cons_kind separated ih)

theorem Name.Unlisted.halts {diagnostic : Diagnostic} {tokens : List Token}
    (refused : Name.Unlisted diagnostic tokens) : Halts 0 diagnostic tokens := by
  cases refused with
  | name _ rest => exact rest.halts
  | close given => exact .stop given.opens

mutual

theorem Expr.Refused.halts {limit : Option Nat} : ∀ {nest : Nat} {bound : Precedence} {count : Nat}
    {diagnostic : Diagnostic} {tokens : List Token},
    Expr.Refused limit nest bound count diagnostic tokens → Halts count diagnostic tokens
  | _, _, _, _, _, .tooDeep _ _ => .stop .nil
  | _, _, _, _, _, .operand _ inner => inner.halts
  | _, _, _, _, _, .right operates first _ _ _ second =>
    .behind first.opens (second.halts.cons (Rules.flat_of_operator operates))
  | _, _, _, _, _, .arguments opens first _ _ _ given =>
    .behind first.opens (.cons_kind opens given.halts)

theorem Expr.RefusedOperand.halts {limit : Option Nat} : ∀ {nest count : Nat}
    {diagnostic : Diagnostic} {tokens : List Token},
    Expr.RefusedOperand limit nest count diagnostic tokens → Halts count diagnostic tokens
  | _, _, _, _, .start _ => .stop .nil
  | _, _, _, _, .integer _ _ => .stop .nil
  | _, _, _, _, .unary operates inner =>
    operates.elim (fun operates => .cons_kind operates inner.halts) fun operates =>
      .cons_kind operates inner.halts
  | _, _, _, _, .grouped opens inner => .cons_kind opens inner.halts
  | _, _, _, _, .condition chooses _ => .cons_kind chooses (.stop .nil)
  | _, _, _, _, .tested chooses opens inner => .cons_kind chooses (.cons_kind opens inner.halts)
  | _, _, _, _, .chosen chooses opens tested _ closes inner =>
    .cons_kind chooses (.cons_kind opens (.behind tested.opens (.cons_kind closes inner.halts)))
  | _, _, _, _, .left chooses opens tested _ closes chosen _ turns inner => by
    simp only [List.cons_append, List.append_assoc]
    exact .cons_kind chooses (.cons_kind opens (.behind tested.opens (.cons_kind closes
      (.behind chosen.opens (.cons_kind turns inner.halts)))))
  | _, _, _, _, .function defines _ => .cons_kind defines (.stop .nil)
  | _, _, _, _, .parameters defines opens inner => .cons_kind defines (.cons_kind opens inner.halts)
  | _, _, _, _, .does defines opens parameters inner =>
    .cons_kind defines (.cons_kind opens (.behind parameters.opens inner.halts))

theorem Expr.Unclosed.halts {limit : Option Nat} : ∀ {nest : Nat} {closer : Kind} {count : Nat}
    {diagnostic : Diagnostic} {tokens : List Token},
    Expr.Unclosed limit nest closer count diagnostic tokens → Halts count diagnostic tokens
  | _, _, _, _, _, .inner inner => inner.halts
  | _, _, _, _, _, .close given _ _ _ => .stop given.opens

theorem Expr.RefusedList.halts {limit : Option Nat} : ∀ {nest count : Nat}
    {diagnostic : Diagnostic} {tokens : List Token},
    Expr.RefusedList limit nest count diagnostic tokens → Halts count diagnostic tokens
  | _, _, _, _, .first inner => inner.halts
  | _, _, _, _, .later first _ separated rest =>
      .behind first.opens (.cons_kind separated rest.halts)

theorem Expr.Unlisted.halts {limit : Option Nat} : ∀ {nest count : Nat}
    {diagnostic : Diagnostic} {tokens : List Token},
    Expr.Unlisted limit nest count diagnostic tokens → Halts count diagnostic tokens
  | _, _, _, _, .argument _ rest => rest.halts
  | _, _, _, _, .close given _ _ _ _ => .stop given.opens

theorem Stmt.Refused.halts {limit : Option Nat} : ∀ {nest count : Nat}
    {diagnostic : Diagnostic} {tokens : List Token},
    Stmt.Refused limit nest count diagnostic tokens → Halts count diagnostic tokens
  | _, _, _, _, .name declares _ => .cons_kind declares (.stop .nil)
  | _, _, _, _, .assign declares named _ => .cons_kind declares (.cons_kind named (.stop .nil))
  | _, _, _, _, .declaration declares named assigns inner =>
    .cons_kind declares (.cons_kind named (.cons_kind assigns inner.halts))
  | _, _, _, _, .ret returns inner => .cons_kind returns inner.halts
  | _, _, _, _, .expression _ inner => inner.halts
  | _, _, _, _, .semicolon given _ _ _ _ => .stop given.opens

theorem Stmt.RefusedList.halts {limit : Option Nat} : ∀ {closer : Kind} {nest count : Nat}
    {diagnostic : Diagnostic} {tokens : List Token},
    Stmt.RefusedList limit closer nest count diagnostic tokens → Halts count diagnostic tokens
  | _, _, _, _, _, .first _ _ inner => inner.halts
  | _, _, _, _, _, .later written _ _ rest => .behind written.opens rest.halts

theorem Block.Refused.halts {limit : Option Nat} : ∀ {nest count : Nat}
    {diagnostic : Diagnostic} {tokens : List Token},
    Block.Refused limit nest count diagnostic tokens → Halts count diagnostic tokens
  | _, _, _, _, .brace _ => .stop .nil
  | _, _, _, _, .statement opens body => .brace opens body.halts body.ne_nil
  | _, _, _, _, .close opens given _ _ => .brace opens (.stop given.opens) nofun

end

/-- Tokens that leave blocks open split at the brace that opened the outermost of them. -/
theorem Opens.outermost {count : Nat} {tokens : List Token} (opens : Opens (count + 1) tokens) :
    ∃ before opening inside, tokens = before ++ opening :: inside ∧ Opens 0 before ∧
      opening.kind = .openCurly ∧ Opens count inside := by
  induction tokens using List.reverseRecOn generalizing count with
  | nil => cases opens
  | append_singleton tokens token ih =>
    unfold Opens at opens
    rw [depthBehind_append] at opens
    obtain ⟨depth, found, opens⟩ := Option.bind_eq_some_iff.mp opens
    rcases token.kind.brace_cases with kind | kind | flat
    · rw [depthBehind_open kind] at opens
      cases opens
      cases count with
      | zero => exact ⟨tokens, token, [], rfl, found, kind, .nil⟩
      | succ count =>
        obtain ⟨before, opening, inside, rfl, closed, opened, rest⟩ := ih found
        exact ⟨before, opening, inside ++ [token], by simp, closed, opened,
          rest.append (Opens.nil.brace kind)⟩
    · cases depth with
      | zero => rw [depthBehind_close_zero kind] at opens; cases opens
      | succ depth =>
        rw [depthBehind_close kind] at opens
        cases opens
        obtain ⟨before, opening, inside, rfl, closed, opened, rest⟩ := ih found
        refine ⟨before, opening, inside ++ [token], by simp, closed, opened, ?_⟩
        rw [Opens, depthBehind_append, rest]
        exact depthBehind_close kind count []
    · rw [depthBehind_flat flat] at opens
      cases opens
      obtain ⟨before, opening, inside, rfl, closed, opened, rest⟩ := ih found
      exact ⟨before, opening, inside ++ [token], by simp, closed, opened,
        rest.append (.single flat)⟩

/-- Blocks opened and closed on the way do not change which brace closes the outermost one. -/
theorem behindClosing_append {depth after : Nat} {tokens : List Token} (plain : Plain tokens)
    (found : depthBehind depth tokens = some after) (rest : List Token) :
    behindClosing (depth + 1) (tokens ++ rest) = behindClosing (after + 1) rest := by
  induction tokens generalizing depth with
  | nil =>
    cases found
    rfl
  | cons token tokens ih =>
    obtain ⟨present, plain⟩ := plain_cons.mp plain
    rw [List.cons_append, behindClosing]
    rcases token.kind.brace_cases with kind | kind | flat
    · rw [depthBehind_open kind] at found
      rw [if_pos kind]
      exact ih plain found
    · cases depth with
      | zero => rw [depthBehind_close_zero kind] at found; cases found
      | succ depth =>
        rw [depthBehind_close kind] at found
        rw [if_neg (by simp [kind]), if_pos kind, if_neg (by omega)]
        exact ih plain found
    · rw [depthBehind_flat flat] at found
      rw [if_neg flat.1, if_neg flat.2, if_neg present]
      exact ih plain found

/-- The brace that closes the outermost block is found from behind the one that closes the next. -/
theorem behindClosing_succ {depth : Nat} (inside : 0 < depth) (tokens : List Token) :
    behindClosing (depth + 1) tokens = (behindClosing depth tokens).bind (behindClosing 1) := by
  induction tokens generalizing depth with
  | nil => rfl
  | cons token rest ih =>
    rw [behindClosing, behindClosing]
    rcases token.kind.brace_cases with kind | kind | flat
    · rw [if_pos kind, if_pos kind, ih (by omega)]
    · have opens : token.kind ≠ .openCurly := by simp [kind]
      rw [if_neg opens, if_neg opens, if_pos kind, if_pos kind, if_neg (by omega),
        Nat.add_sub_cancel]
      split
      · next last =>
        obtain rfl : depth = 1 := by omega
        rfl
      · next further =>
        obtain ⟨depth, rfl⟩ : ∃ less, depth = less + 1 := ⟨depth - 1, by omega⟩
        exact ih (by omega)
    · rw [if_neg flat.1, if_neg flat.1, if_neg flat.2, if_neg flat.2]
      split
      · rfl
      · exact ih inside

/-- What follows the closing brace is left of the tokens, which hold at least that brace. -/
theorem behindClosing_suffix {depth : Nat} {tokens behind : List Token}
    (closed : behindClosing depth tokens = some behind) :
    ∃ closing, closing :: behind <:+ tokens := by
  induction tokens generalizing depth with
  | nil => cases closed
  | cons token rest ih =>
    have further {depth : Nat} (closed : behindClosing depth rest = some behind) :
        ∃ closing, closing :: behind <:+ token :: rest := by
      obtain ⟨closing, suffix⟩ := ih closed
      exact ⟨closing, suffix.trans (List.suffix_cons token rest)⟩
    rw [behindClosing] at closed
    split at closed
    · exact further closed
    · split at closed
      · split at closed
        · cases closed
          exact ⟨token, List.suffix_rfl⟩
        · exact further closed
      · split at closed
        · cases closed
        · exact further closed

theorem Opens.of_flat {tokens : List Token} (flat : ∀ token ∈ tokens, token.kind.Flat) :
    Opens 0 tokens := by
  induction tokens with
  | nil => exact .nil
  | cons token tokens ih =>
    exact (ih fun other among => flat other (.tail _ among)).cons (flat token (.head _))

theorem Opens.unique {count more : Nat} {tokens : List Token} (opens : Opens count tokens)
    (others : Opens more tokens) : count = more :=
  Option.some_inj.mp (opens.symm.trans others)

/-- Tokens that begin a single balanced block, and leave a block open, end inside of it. -/
theorem Opens.within {count : Nat} {head body tokens rest : List Token} {opening closing : Token}
    (opens : Opens (count + 1) tokens) (flat : ∀ token ∈ head, token.kind.Flat)
    (kind : opening.kind = .openCurly) (balanced : Opens 0 body)
    (closes : closing.kind = .closeCurly)
    (same : head ++ (opening :: body ++ [closing]) = tokens ++ rest) :
    ∃ others, rest = others ++ [closing] ∧ head ++ opening :: body = tokens ++ others ∧
      depthBehind count others = some 0 := by
  have headless := Opens.of_flat flat
  rcases rest.eq_nil_or_concat' with rfl | ⟨others, last, rfl⟩
  · -- The whole block leaves nothing open.
    rw [List.append_nil] at same
    subst same
    cases opens.unique (headless.behind (Opens.braces kind balanced closes))
  rw [← List.append_assoc, ← List.append_assoc] at same
  obtain ⟨halves, only⟩ := List.append_inj' same rfl
  obtain rfl : closing = last := by simpa using only
  refine ⟨others, rfl, halves, ?_⟩
  rcases List.append_eq_append_iff.mp halves with ⟨inside, rfl, parts⟩ | ⟨more, rfl, -⟩
  · cases inside with
    | nil =>
      rw [List.append_nil] at opens
      cases opens.unique headless
    | cons token inside =>
      rw [List.cons_append] at parts
      obtain ⟨rfl, rfl⟩ := List.cons_eq_cons.mp parts
      rw [Opens, depthBehind_append] at balanced
      obtain ⟨depth, found, balanced⟩ := Option.bind_eq_some_iff.mp balanced
      obtain rfl : depth = count := by
        have whole := opens.unique (headless.behind (Opens.brace kind found))
        omega
      exact balanced
  · cases opens.unique (.of_flat fun token among => flat token (List.mem_append_left _ among))

end ScriptReader
