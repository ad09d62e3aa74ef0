import Mathlib.Data.List.Forall2
import ScriptReader.Proofs.Run

/-! # Where the statements of a program stand

Each statement that parsing answers is written by a segment of the list of tokens. The segments
follow one another in the order of the statements and do not overlap. What lies between them falls
into parts that were given up, one for each diagnostic, and begins with what it was refused for. So
no token before the end of input is left out, and where nothing is reported the segments touch.
-/

namespace ScriptReader

/-- The tokens from the first position up to the second one are a writing of the statement. -/
def Stmt.WrittenBetween (tokens : List Token) (statement : Stmt) (span : Nat × Nat) : Prop :=
  span.1 < span.2 ∧ span.2 ≤ tokens.length ∧ ∃ ending level,
    Stmt.Written ending level statement ((tokens.drop span.1).take (span.2 - span.1))

/-- Every statement has a segment of its own, and the segments follow one another. -/
def Stmt.Segmented (tokens : List Token) (statements : List Stmt)
    (spans : List (Nat × Nat)) : Prop :=
  spans.Pairwise (fun earlier later => earlier.2 ≤ later.1) ∧
    List.Forall₂ (Stmt.WrittenBetween tokens) statements spans

/-- The tokens from the first position up to the second one begin with the refusal that the
diagnostic reports, and the token behind the refusal is the one it blames. -/
def Diagnostic.GivenUpBetween (limit : Option Nat) (tokens : List Token) (diagnostic : Diagnostic)
    (span : Nat × Nat) : Prop :=
  span.1 < span.2 ∧ span.2 ≤ tokens.length ∧ ∃ count refused,
    Stmt.Refused limit 0 count diagnostic refused ∧
      refused <+: (tokens.drop span.1).take (span.2 - span.1) ∧
      front (tokens.drop (span.1 + refused.length)) = diagnostic.token

/-- What becomes of the tokens from a place up to the end of input: every one of them is in the
segment of a statement or was given up for a diagnostic. -/
inductive Accounted (limit : Option Nat) (tokens : List Token) :
    Nat → List Stmt → List (Nat × Nat) → List Diagnostic → Prop
  | ended {place : Nat} (ended : (front (tokens.drop place)).kind = .endOfInput) :
      Accounted limit tokens place [] [] []
  | statement {place next : Nat} {statement : Stmt} {statements : List Stmt}
      {spans : List (Nat × Nat)} {diagnostics : List Diagnostic}
      (written : Stmt.WrittenBetween tokens statement (place, next))
      (behind : Accounted limit tokens next statements spans diagnostics) :
      Accounted limit tokens place (statement :: statements) ((place, next) :: spans) diagnostics
  | gap {place next : Nat} {statements : List Stmt} {spans : List (Nat × Nat)}
      {diagnostic : Diagnostic} {diagnostics : List Diagnostic}
      (givenUp : diagnostic.GivenUpBetween limit tokens (place, next))
      (behind : Accounted limit tokens next statements spans diagnostics) :
      Accounted limit tokens place statements spans (diagnostic :: diagnostics)

section Places

variable {whole tokens rest : List Token} {place : Nat}

theorem drop_add_length (here : whole.drop place = tokens ++ rest) :
    whole.drop (place + tokens.length) = rest := by
  rw [← List.drop_drop, here, List.drop_left]

theorem take_drop_between (here : whole.drop place = tokens ++ rest) :
    (whole.drop place).take (place + tokens.length - place) = tokens := by
  rw [here, Nat.add_sub_cancel_left, List.take_left]

theorem between_of_drop (here : whole.drop place = tokens ++ rest) (nonempty : tokens ≠ []) :
    place < place + tokens.length ∧ place + tokens.length ≤ whole.length := by
  have present := List.length_pos_iff.mpr nonempty
  have size := congrArg List.length here
  rw [List.length_drop, List.length_append] at size
  omega

end Places

/-- A run accounts for all tokens from the place on at which it begins. -/
theorem Run.accounted {limit : Option Nat} {whole tokens : List Token} {statements : List Stmt}
    {diagnostics : List Diagnostic} (run : Run limit tokens statements diagnostics) :
    ∀ {place : Nat}, whole.drop place = tokens →
      ∃ spans, Accounted limit whole place statements spans diagnostics := by
  induction run with
  | ended ended =>
    intro place here
    rw [← here] at ended
    exact ⟨[], .ended ended⟩
  | @statement ending level statement _ _ tokens rest written _ _ _ ih =>
    intro place here
    obtain ⟨spans, accounted⟩ := ih (drop_add_length here)
    obtain ⟨further, bounded⟩ := between_of_drop here written.ne_nil
    refine ⟨_, .statement ⟨further, bounded, ending, level, ?_⟩ accounted⟩
    rwa [take_drop_between here]
  | @recovery count diagnostic _ _ tokens rest refused blame present _ ih =>
    intro place here
    rw [← drop_add_length here] at blame
    have shorter := length_resumed_blamed_lt count diagnostic present
    obtain ⟨more, split⟩ := resumed_blamed_suffix_rest count diagnostic tokens rest
    have here : whole.drop place =
        (tokens ++ more) ++ resumed count (blamed diagnostic tokens rest) := by
      rw [here, List.append_assoc, split]
    have passed : 0 < (tokens ++ more).length := by
      have size := congrArg List.length split
      rw [List.length_append] at size shorter ⊢
      omega
    obtain ⟨spans, accounted⟩ := ih (drop_add_length here)
    obtain ⟨further, bounded⟩ := between_of_drop here (List.ne_nil_of_length_pos passed)
    refine ⟨_, .gap ⟨further, bounded, count, tokens, refused, ?_, blame⟩ accounted⟩
    rw [take_drop_between here]
    exact List.prefix_append tokens more

namespace Accounted

variable {limit : Option Nat} {tokens : List Token} {place : Nat} {statements : List Stmt}
  {spans : List (Nat × Nat)} {diagnostics : List Diagnostic}

/-- No segment begins before the place. -/
theorem le_of_mem (accounted : Accounted limit tokens place statements spans diagnostics) :
    ∀ span ∈ spans, place ≤ span.1 := by
  induction accounted with
  | ended => exact nofun
  | statement written _ ih =>
    rw [List.forall_mem_cons]
    constructor
    · exact Nat.le_refl _
    · intro span among
      exact Nat.le_trans (Nat.le_of_lt written.1) (ih span among)
  | gap givenUp _ ih =>
    intro span among
    exact Nat.le_trans (Nat.le_of_lt givenUp.1) (ih span among)

theorem segmented (accounted : Accounted limit tokens place statements spans diagnostics) :
    Stmt.Segmented tokens statements spans := by
  induction accounted with
  | ended => exact ⟨.nil, .nil⟩
  | statement written behind ih =>
    obtain ⟨apart, others⟩ := ih
    constructor
    · exact apart.cons behind.le_of_mem
    · exact others.cons written
  | gap _ _ ih => exact ih

/-- Without a diagnostic each segment begins where the one before it ends, and the input ends behind
the last one. -/
theorem adjacent (accounted : Accounted limit tokens place statements spans diagnostics)
    (clean : diagnostics = []) :
    ∃ last, spans.map Prod.fst ++ [last] = place :: spans.map Prod.snd ∧
      (front (tokens.drop last)).kind = .endOfInput := by
  induction accounted with
  | ended ended => exact ⟨_, rfl, ended⟩
  | statement _ _ ih =>
    obtain ⟨last, chained, ended⟩ := ih clean
    refine ⟨last, ?_, ended⟩
    rw [List.map_cons, List.cons_append, chained, List.map_cons]
  | gap => cases clean

end Accounted

/-- Parsing accounts for every token before the end of input. -/
theorem parse_accounted (tokens : List Token) :
    ∃ spans, Accounted (some Parser.standardLimit) tokens 0 (parse tokens).1.statements spans
      (parse tokens).2 :=
  (parse_run tokens).accounted List.drop_zero

/-- Whatever the list, every statement that parsing answers is written by a segment of it. -/
theorem parse_segmented (tokens : List Token) :
    ∃ spans : List (Nat × Nat), spans.Pairwise (fun earlier later => earlier.2 ≤ later.1) ∧
      List.Forall₂ (Stmt.WrittenBetween tokens) (parse tokens).1.statements spans := by
  obtain ⟨spans, accounted⟩ := parse_accounted tokens
  exact ⟨spans, accounted.segmented⟩

/-- Where parsing answers no diagnostic, the segments of its statements leave out no token before
the end of input. -/
theorem parse_adjacent {tokens : List Token} (clean : (parse tokens).2 = []) :
    ∃ (spans : List (Nat × Nat)) (last : Nat),
      List.Forall₂ (Stmt.WrittenBetween tokens) (parse tokens).1.statements spans ∧
        spans.map Prod.fst ++ [last] = 0 :: spans.map Prod.snd ∧
        (front (tokens.drop last)).kind = .endOfInput := by
  obtain ⟨spans, accounted⟩ := parse_accounted tokens
  obtain ⟨last, chained, ended⟩ := accounted.adjacent clean
  exact ⟨spans, last, accounted.segmented.2, chained, ended⟩

end ScriptReader
