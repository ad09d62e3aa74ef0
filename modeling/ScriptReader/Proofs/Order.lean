import ScriptReader.Proofs.Faults
import ScriptReader.Proofs.Isolation
import ScriptReader.Proofs.Recovery
import ScriptReader.Proofs.Streams

/-! # The order of the diagnostics

The tokens that the diagnostics of a program are about come in the order of the text. No token is
blamed twice, as long as no fault is noticed behind a closing brace that the refused statement had
already taken. In that case recovery may take this very brace for the boundary, and the next
statement begins at the token that has just been blamed.
-/

namespace ScriptReader

namespace Fault

/-- The number of tokens from the one that is blamed to the end. -/
def onward {σ : Type} [TokenStream σ] (fault : Fault σ) : Nat :=
  fault.diagnostic.onward fault.after

/-- The place of the token that is blamed. At the end of input this is the number of tokens. -/
def place (tokens : List Token) (fault : Fault (List Token)) : Nat :=
  tokens.length - fault.onward

/-- Recovery takes a closing brace that the statement had taken already for the boundary. -/
def StopsEarly {σ : Type} (fault : Fault σ) : Prop :=
  fault.diagnostic.BehindBrace fault.after ∧ fault.after.openBlocks ≤ 1

/-- The fault blames a token of the list, or the end behind it. At the lookahead no fault blames the
first token. -/
structure LiesIn (tokens : List Token) (fault : Fault (List Token)) : Prop where
  within : fault.onward ≤ tokens.length
  late : fault.diagnostic.cause.atLookahead = true → fault.onward < tokens.length
  token : front (tokens.drop (fault.place tokens)) = fault.diagnostic.token

/-- The second fault blames a later token, or the same one, where recovery from the first fault has
stopped early and the second one is noticed at once. -/
def Before {σ : Type} [TokenStream σ] (fault other : Fault σ) : Prop :=
  other.onward ≤ fault.onward ∧
    (other.onward = fault.onward →
      fault.StopsEarly ∧ other.diagnostic.cause.atLookahead = false)

/-- Tokens in front do not change what a fault blames. -/
theorem LiesIn.suffix {tokens rest : List Token} {fault : Fault (List Token)}
    (lies : fault.LiesIn rest) (suffix : rest <:+ tokens) : fault.LiesIn tokens := by
  obtain ⟨earlier, rfl⟩ := suffix
  have within := lies.within
  refine ⟨?_, fun late => ?_, ?_⟩
  · rw [List.length_append]
    omega
  · have before := lies.late late
    rw [List.length_append]
    omega
  · have moved : fault.place (earlier ++ rest) = earlier.length + fault.place rest := by
      rw [place, place, List.length_append]
      omega
    rw [moved, List.drop_append, List.drop_eq_nil_of_le (Nat.le_add_right ..), List.nil_append,
      Nat.add_sub_cancel_left]
    exact lies.token

end Fault

section Recovery

variable {limit : Option Nat} {nest count : Nat} {diagnostic : Diagnostic}
  {tokens rest : List Token}

/-- What recovery leaves of some tokens is shorter than they are, if there are any. -/
theorem resumed_shorter (depth : Nat) (tokens : List Token) :
    resumed depth tokens = [] ∨ (resumed depth tokens).length < tokens.length := by
  have shorter := length_resumed_le depth tokens
  cases tokens with
  | nil => exact .inl rfl
  | cons token tokens =>
    rw [List.length_cons] at shorter ⊢
    exact .inr (by omega)

/-- Recovery passes the token that is blamed, unless a closing brace stops it one token earlier. -/
theorem Stmt.Refused.resumed_shorter (refused : Stmt.Refused limit nest count diagnostic tokens)
    (plain : Plain tokens) (rest : List Token) :
    resumed count (blamed diagnostic tokens rest) = [] ∨
      (resumed count (blamed diagnostic tokens rest)).length < rest.length ∨
      resumed count (blamed diagnostic tokens rest) = rest ∧
        diagnostic.cause.atLookahead = true ∧ count ≤ 1 ∧
        ∃ last ∈ tokens.getLast?, last.kind = .closeCurly := by
  have passed (depth : Nat) : resumed depth rest = [] ∨ (resumed depth rest).length < rest.length :=
    ScriptReader.resumed_shorter depth rest
  unfold blamed
  split
  · next late =>
    obtain ⟨earlier, last, rfl⟩ := tokens.eq_nil_or_concat'.resolve_left (refused.ne_nil late)
    have present := plain last (by simp)
    rw [window_concat, resumed, lastSkipped]
    split
    · next kind => exact (present kind).elim
    · next kind =>
      split
      · next outside =>
        subst outside
        exact (refused.sealed.last_ne refused.halts.opens last (by simp) kind).elim
      · exact (passed count).imp_right .inl
    · exact (passed (count + 1)).imp_right .inl
    · next kind =>
      split
      · next outside => exact .inr (.inr ⟨rfl, late, by omega, last, by simp, kind⟩)
      · split
        · next outermost =>
          split
          · cases rest with
            | nil => exact .inl rfl
            | cons token rest => exact .inr (.inl (Nat.lt_succ_self _))
          · exact .inr (.inr ⟨rfl, late, by omega, last, by simp, kind⟩)
        · exact (passed (count - 1)).imp_right .inl
    · exact (passed count).imp_right .inl
  · exact (passed count).imp_right .inl

theorem Stmt.Refused.liesIn (refused : Stmt.Refused limit nest count diagnostic tokens)
    (p : Parser (List Token)) (blame : front rest = diagnostic.token) (plain : Plain rest) :
    Fault.LiesIn (tokens ++ rest)
      ⟨diagnostic, (p.opened count).facing (blamed diagnostic tokens rest)⟩ := by
  have onward := refused.onward p plain
  refine ⟨?_, fun late => ?_, ?_⟩
  · rw [Fault.onward, onward, List.length_append]
    omega
  · have shorter := List.length_pos_iff.mpr (refused.ne_nil late)
    rw [Fault.onward, onward, List.length_append]
    omega
  · rw [Fault.place, Fault.onward, onward, List.length_append, Nat.add_sub_cancel]
    simpa using blame

/-- A later fault that lies in what recovery leaves comes behind the one recovered from. -/
theorem Stmt.Refused.before (refused : Stmt.Refused limit nest count diagnostic tokens)
    {p : Parser (List Token)} (closed : p.openBlocks = 0) (plain : Plain (tokens ++ rest))
    {fault : Fault (List Token)}
    (lies : fault.LiesIn (resumed count (blamed diagnostic tokens rest)))
    (left : resumed count (blamed diagnostic tokens rest) ≠ []) :
    Fault.Before ⟨diagnostic, (p.opened count).facing (blamed diagnostic tokens rest)⟩ fault := by
  obtain ⟨plain, others⟩ := plain_append.mp plain
  have onward := refused.onward p others
  have within := lies.within
  rw [Fault.Before, Fault.onward.eq_1 ⟨diagnostic, _⟩, onward]
  obtain shorter | ⟨same, late, few, last, found, closes⟩ :=
    (refused.resumed_shorter plain rest).resolve_left left
  · exact ⟨by omega, fun equal => absurd equal (by omega)⟩
  · rw [same] at within lies
    refine ⟨within, fun equal => ⟨⟨⟨late, ?_⟩, ?_⟩, ?_⟩⟩
    · rw [Parser.current_facing, blamed, if_pos late, window, Option.mem_def.mp found]
      exact closes
    · simpa [Parser.opened, closed] using few
    · by_contra noticed
      have before := lies.late (by simpa using noticed)
      omega

end Recovery

/-- The faults of a run blame its tokens, one behind the other. -/
theorem Run.faults_before {limit : Option Nat} {tokens : List Token} {statements : List Stmt}
    {diagnostics : List Diagnostic} (run : Run limit tokens statements diagnostics) :
    ∀ {p : Parser (List Token)}, p.Stands limit 0 → p.openBlocks = 0 → Plain tokens →
      (∀ fault ∈ (p.facing tokens).faults, fault.LiesIn tokens) ∧
        (p.facing tokens).faults.Pairwise Fault.Before := by
  induction run with
  | ended ended =>
    intro p _ _ _
    rw [Parser.faults_ended ended]
    exact ⟨List.forall_mem_nil _, .nil⟩
  | @statement _ _ _ _ _ tokens rest written room apart _ ih =>
    intro p stands closed plain
    rw [written.faults stands room apart]
    obtain ⟨lie, ordered⟩ := ih stands closed (plain_append.mp plain).2
    exact ⟨fun fault among => (lie fault among).suffix (List.suffix_append tokens rest), ordered⟩
  | @recovery count diagnostic _ _ tokens rest refused blame present _ ih =>
    intro p stands closed plain
    have suffix := resumed_blamed_suffix count diagnostic tokens rest
    have closed' : (p.record diagnostic).openBlocks = 0 := closed
    obtain ⟨lie, ordered⟩ := ih (stands.record diagnostic) closed' (plain.suffix suffix)
    rw [refused.faults stands closed blame present, List.forall_mem_cons, List.pairwise_cons]
    refine ⟨⟨refused.liesIn p blame (plain_append.mp plain).2, fun fault among =>
      (lie fault among).suffix suffix⟩, fun fault among => ?_, ordered⟩
    refine refused.before closed plain (lie fault among) fun nothing => ?_
    rw [nothing, Parser.faults_ended rfl] at among
    cases among

/-- The faults of a text, as they are found in the list of its tokens. -/
def textFaults (text : String) : List (Fault (List Token)) :=
  (Parser.ofStream (Scanner.ofString text).tokens).faults

/-- The place of the token that is blamed, among all tokens of the text. -/
def Fault.placeIn (text : String) (fault : Fault (List Token)) : Nat :=
  fault.place (Scanner.ofString text).tokens

theorem textFaults_before (text : String) :
    (∀ fault ∈ textFaults text, fault.LiesIn (Scanner.ofString text).tokens) ∧
      (textFaults text).Pairwise Fault.Before := by
  have plain : Plain (Scanner.ofString text).tokens := TokenStream.plain_drain _
  rw [textFaults, Parser.ofStream, Parser.start_eq_facing]
  exact (parse_run _).faults_before ⟨rfl, rfl, rfl⟩ rfl plain

theorem Fault.LiesIn.getElem? {text : String} {fault : Fault (List Token)}
    (lies : fault.LiesIn (Scanner.ofString text).tokens) :
    (tokenize text)[fault.placeIn text]? = some fault.diagnostic.token := by
  have token := lies.token
  rw [tokenize, placeIn]
  rcases Nat.lt_or_ge (fault.place (Scanner.ofString text).tokens)
    (Scanner.ofString text).tokens.length with inside | ended
  · rw [List.drop_eq_getElem_cons inside] at token
    rw [List.getElem?_append_left inside, List.getElem?_eq_getElem inside, ← token]
    rfl
  · rw [List.drop_eq_nil_of_le ended] at token
    have last :
        fault.place (Scanner.ofString text).tokens = (Scanner.ofString text).tokens.length :=
      Nat.le_antisymm (Nat.sub_le ..) ended
    rw [last, ← token]
    simp

/-- The diagnostics of a text are about tokens in the order of the text. Two of them are about the
same token only where recovery from the first fault stops early, at a closing brace that the refused
statement had already taken, and the second one is noticed where the next statement begins. Without
such a fault every diagnostic is about a later token than the ones before. -/
theorem parseText_ordered (text : String) :
    (parseText text).2 = (textFaults text).map Fault.diagnostic ∧
    (∀ fault ∈ textFaults text,
      (tokenize text)[fault.placeIn text]? = some fault.diagnostic.token) ∧
    (textFaults text).Pairwise (fun earlier later =>
      earlier.placeIn text ≤ later.placeIn text ∧
      (earlier.placeIn text = later.placeIn text →
        earlier.StopsEarly ∧ later.diagnostic.cause.atLookahead = false)) ∧
    ((∀ fault ∈ textFaults text, ¬ fault.StopsEarly) →
      ((textFaults text).map (Fault.placeIn text)).Pairwise (· < ·)) := by
  obtain ⟨lie, ordered⟩ := textFaults_before text
  have places : (textFaults text).Pairwise (fun earlier later =>
      earlier.placeIn text ≤ later.placeIn text ∧
      (earlier.placeIn text = later.placeIn text →
        earlier.StopsEarly ∧ later.diagnostic.cause.atLookahead = false)) := by
    refine ordered.imp_of_mem fun {earlier later} among among' ⟨behind, equal⟩ => ?_
    have within := (lie earlier among).within
    have within' := (lie later among').within
    rw [Fault.placeIn, Fault.placeIn, Fault.place, Fault.place]
    exact ⟨by omega, fun same => equal (by omega)⟩
  refine ⟨?_, fun fault among => (lie fault among).getElem?, places, fun none => ?_⟩
  · rw [parseText_eq, parse_diagnostics, textFaults]
  · rw [List.pairwise_map]
    refine places.imp_of_mem fun {earlier later} among _ ⟨behind, equal⟩ => ?_
    exact Nat.lt_of_le_of_ne behind fun same => none earlier among (equal same).1

/-- Declarations without names are blamed one behind the other. -/
theorem parseText_ordered_unnamed :
    (∀ fault ∈ textFaults "var ; var 1 ;", ¬ fault.StopsEarly) ∧
      ((textFaults "var ; var 1 ;").map (Fault.placeIn "var ; var 1 ;")).Pairwise (· < ·) := by
  have timely : ∀ fault ∈ textFaults "var ; var 1 ;", ¬ fault.StopsEarly := by
    unfold Fault.StopsEarly Diagnostic.BehindBrace
    decide +kernel
  exact ⟨timely, (parseText_ordered _).2.2.2 timely⟩

/-- Behind a function, whose closing brace counts twice, the same comma is blamed twice. -/
theorem parseText_blames_twice :
    ¬ ∃ places : List Nat, places.Pairwise (· < ·) ∧
      List.Forall₂ (fun place diagnostic =>
        (tokenize "return fn() \x7b \x7d , ;")[place]? = some diagnostic.token)
        places (parseText "return fn() \x7b \x7d , ;").2 := by
  have tokens : tokenize "return fn() \x7b \x7d , ;" =
      [⟨.returnWord, "return"⟩, .fnWord, .openParen, .closeParen, .openCurly, .closeCurly, .comma,
        .semicolon, .endOfInput] := by
    decide +kernel
  have diagnostics : (parseText "return fn() \x7b \x7d , ;").2 =
      [.unexpected .semicolon .comma, .noOperand .comma] := by
    decide +kernel
  have once (place : Nat) (found : (tokenize "return fn() \x7b \x7d , ;")[place]? = some .comma) :
      place = 6 := by
    rw [tokens, List.getElem?_eq_some_iff] at found
    obtain ⟨bounded, found⟩ := found
    revert place
    decide
  rintro ⟨places, increasing, blamed⟩
  rw [diagnostics] at blamed
  obtain - | ⟨found, - | ⟨found', -⟩⟩ := blamed
  rw [once _ found, once _ found'] at increasing
  simp at increasing

end ScriptReader
