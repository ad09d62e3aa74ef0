import ScriptReader.Proofs.Listing
import ScriptReader.Proofs.Munch
import ScriptReader.Proofs.Truthfulness

/-! # Reports of diagnostics

The message of a diagnostic tells its cause, and the line of its token tells the token. Tips hold a
literal as it is, but the literals that a scanner makes hold no blank, so no line feed is among the
characters of a tip, message or token. A report is cut into three lines for each diagnostic for this
reason, and tells all of them.
-/

namespace ScriptReader

theorem Kind.unbroken_name (kind : Kind) : Unbroken kind.name :=
  fun feed => kind.not_control_name _ feed (by decide)

theorem unbroken_quote (text : String) : Unbroken (quote text) :=
  fun feed => not_control_quote text _ feed (by decide)

theorem unbroken_repr (number : Nat) : Unbroken number.repr := by
  intro feed
  rw [Nat.repr_eq_ofList_toDigits, String.toList_ofList] at feed
  have digit := Nat.isDigit_of_mem_toDigits (by decide) (by decide) feed
  cases digit

namespace Cause

/-! ### Messages -/

theorem unbroken_message : ∀ cause : Cause, Unbroken cause.message
  | .unexpected expected found =>
    .append (.append (.append (.append (by decide) expected.unbroken_name) (by decide))
      found.unbroken_name) (by decide)
  | .noOperand found => .append (.append (by decide) found.unbroken_name) (by decide)
  | .illegalCharacter literal => .append (by decide) (unbroken_quote literal)
  | .badInteger literal => .append (.append (by decide) (unbroken_quote literal)) (by decide)
  | .tooDeep limit => .append (.append (by decide) (unbroken_repr limit)) (by decide)

theorem unbroken_name : ∀ cause : Cause, Unbroken cause.name
  | .unexpected .. => (by decide : Unbroken "UnexpectedToken")
  | .noOperand _ => (by decide : Unbroken "NoPrefixRule")
  | .illegalCharacter _ => (by decide : Unbroken "IllegalToken")
  | .badInteger _ => (by decide : Unbroken "IntegerParseError")
  | .tooDeep _ => (by decide : Unbroken "NestingTooDeep")

/-- A tip is broken only by what the cause is about. -/
theorem unbroken_tip {cause : Cause} (parts : ∀ part ∈ cause.detail, Unbroken part) :
    ∀ tip ∈ cause.tip, Unbroken tip := by
  intro tip given
  cases cause with
  | unexpected expected found =>
    have missing : tip = "did you miss a semicolon?" := by
      cases expected <;> cases given
      rfl
    subst missing
    decide
  | noOperand found =>
    cases given
    exact .append (.append (by decide) found.unbroken_name) (by decide)
  | illegalCharacter literal =>
    cases given
    exact .append (.append (by decide) (parts literal (.head _))) (by decide)
  | badInteger literal =>
    cases given
    exact .append (.append (by decide) (parts literal (.head _))) (by decide)
  | tooDeep limit =>
    cases given
    decide

/-- The characters of a message, the fixed ones apart from those of its particulars. -/
theorem toList_message : ∀ cause : Cause, cause.message.toList =
    match cause with
    | .unexpected expected found =>
      "expected next token to be ".toList ++ (expected.name.toList ++
        (", got ".toList ++ (found.name.toList ++ " instead".toList)))
    | .noOperand found =>
      "no prefix parse rule for ".toList ++ (found.name.toList ++ " found".toList)
    | .illegalCharacter literal => "illegal character ".toList ++ (quote literal).toList
    | .badInteger literal =>
      "could not parse ".toList ++ ((quote literal).toList ++ " as integer".toList)
    | .tooDeep limit =>
      "expression nested deeper than ".toList ++ (limit.repr.toList ++ " levels".toList)
  | .unexpected expected found => by
    change ("expected next token to be " ++ expected.name ++ ", got " ++ found.name ++
      " instead").toList = _
    simp only [String.toList_append, List.append_assoc]
  | .noOperand found => by
    change ("no prefix parse rule for " ++ found.name ++ " found").toList = _
    simp only [String.toList_append, List.append_assoc]
  | .illegalCharacter literal => by
    change ("illegal character " ++ quote literal).toList = _
    simp only [String.toList_append]
  | .badInteger literal => by
    change ("could not parse " ++ quote literal ++ " as integer").toList = _
    simp only [String.toList_append, List.append_assoc]
  | .tooDeep limit => by
    change ("expression nested deeper than " ++ limit.repr ++ " levels").toList = _
    simp only [String.toList_append, List.append_assoc]

theorem message_injective : Function.Injective message := by
  intro cause other same
  have same := congrArg String.toList same
  rw [toList_message, toList_message] at same
  cases cause with
  | unexpected expected found =>
    cases other with
    | unexpected expected' found' =>
      obtain ⟨rfl, behind⟩ := Kind.name_delimits (by simp) (by simp) (List.append_cancel_left same)
      obtain ⟨rfl, -⟩ := Kind.name_delimits (by simp) (by simp) (List.append_cancel_left behind)
      rfl
    | _ => simp at same
  | noOperand found =>
    cases other with
    | noOperand found' =>
      obtain ⟨rfl, -⟩ := Kind.name_delimits (by simp) (by simp) (List.append_cancel_left same)
      rfl
    | _ => simp at same
  | illegalCharacter literal =>
    cases other with
    | illegalCharacter literal' =>
      have quoted := String.toList_injective (List.append_cancel_left same)
      rw [quote_injective quoted]
    | _ => simp at same
  | badInteger literal =>
    cases other with
    | badInteger literal' =>
      obtain ⟨rfl, -⟩ := quote_delimits (List.append_cancel_left same)
      rfl
    | _ => simp at same
  | tooDeep limit =>
    cases other with
    | tooDeep limit' =>
      have digits := List.append_cancel_right (List.append_cancel_left same)
      rw [Nat.repr_eq_ofList_toDigits, Nat.repr_eq_ofList_toDigits, String.toList_ofList,
        String.toList_ofList] at digits
      have value := congrArg (Nat.ofDigitChars 10 · 0) digits
      simp only [Nat.ofDigitChars_ten_toDigits] at value
      rw [value]
    | _ => simp at same

end Cause

namespace Diagnostic

/-! ### Lines -/

/-- The three lines of a diagnostic, without their line breaks. -/
def lines (diagnostic : Diagnostic) : List String :=
  [diagnostic.heading, " | " ++ diagnostic.cause.message, " | at " ++ diagnostic.token.text]

theorem text_eq_join (diagnostic : Diagnostic) :
    diagnostic.text = String.join (diagnostic.lines.map (· ++ "\n")) := by
  apply String.toList_injective
  simp [text, lines]

theorem unbroken_heading {diagnostic : Diagnostic}
    (parts : ∀ part ∈ diagnostic.cause.detail, Unbroken part) : Unbroken diagnostic.heading := by
  unfold heading
  split
  · exact .append (by decide) diagnostic.cause.unbroken_name
  · next tip given =>
    have name := diagnostic.cause.unbroken_name
    have inner := Cause.unbroken_tip parts tip given
    exact .append (.append (.append (.append (by decide) name) (by decide)) inner) (by decide)

theorem unbroken_lines {diagnostic : Diagnostic}
    (parts : ∀ part ∈ diagnostic.cause.detail, Unbroken part) :
    ∀ line ∈ diagnostic.lines, Unbroken line := by
  rw [lines, List.forall_mem_cons, List.forall_mem_cons, List.forall_mem_singleton]
  refine ⟨unbroken_heading parts, ?_, ?_⟩
  · exact .append (by decide) diagnostic.cause.unbroken_message
  · exact .append (by decide) diagnostic.token.unbroken_text

theorem lines_injective : Function.Injective lines := by
  intro diagnostic other same
  obtain ⟨-, same⟩ := List.cons.inj same
  obtain ⟨message, same⟩ := List.cons.inj same
  have token := congrArg String.toList (List.head_eq_of_cons_eq same)
  have message := congrArg String.toList message
  rw [String.toList_append, String.toList_append] at token message
  have token := Token.text_injective (String.toList_injective (List.append_cancel_left token))
  have cause := Cause.message_injective (String.toList_injective (List.append_cancel_left message))
  cases diagnostic
  cases other
  exact congrArg₂ Diagnostic.mk cause token

/-- What a truthful diagnostic is about is named or spelled by the token it blames. -/
theorem Truthful.unbroken_detail {limit : Option Nat} {diagnostic : Diagnostic}
    (truthful : diagnostic.Truthful limit) (unbroken : Unbroken diagnostic.token.literal) :
    ∀ part ∈ diagnostic.cause.detail, Unbroken part := by
  obtain ⟨cause, token⟩ := diagnostic
  cases cause with
  | unexpected expected found =>
    change ∀ part ∈ [expected.name, found.name], Unbroken part
    rw [List.forall_mem_cons, List.forall_mem_singleton]
    exact ⟨expected.unbroken_name, found.unbroken_name⟩
  | noOperand found => exact List.forall_mem_singleton.mpr found.unbroken_name
  | illegalCharacter literal =>
    obtain ⟨-, spelled⟩ := truthful
    exact List.forall_mem_singleton.mpr (spelled ▸ unbroken)
  | badInteger literal =>
    obtain ⟨-, spelled, -⟩ := truthful
    exact List.forall_mem_singleton.mpr (spelled ▸ unbroken)
  | tooDeep most => exact List.forall_mem_singleton.mpr (unbroken_repr most)

end Diagnostic

/-- The lines of a report, without their line breaks. -/
def reportLines (diagnostics : List Diagnostic) : List String :=
  diagnostics.flatMap Diagnostic.lines

theorem report_eq_join (diagnostics : List Diagnostic) :
    report diagnostics = String.join ((reportLines diagnostics).map (· ++ "\n")) := by
  apply String.toList_injective
  rw [report, reportLines, String.toList_join, String.toList_join, List.flatMap_map,
    List.map_flatMap, List.flatMap_assoc]
  congr 1
  funext diagnostic
  rw [diagnostic.text_eq_join, String.toList_join]

/-- Every third line begins another diagnostic, so the lines tell how many there are and each of
them. -/
theorem reportLines_injective : Function.Injective reportLines := by
  intro diagnostics others same
  induction diagnostics generalizing others with
  | nil =>
    cases others with
    | nil => rfl
    | cons => cases same
  | cons diagnostic diagnostics ih =>
    cases others with
    | nil => cases same
    | cons other others =>
      rw [reportLines, reportLines, List.flatMap_cons, List.flatMap_cons] at same
      obtain ⟨first, behind⟩ := List.append_inj same rfl
      rw [Diagnostic.lines_injective first, ih behind]

theorem splitLines_report {diagnostics : List Diagnostic}
    (unbroken : ∀ line ∈ reportLines diagnostics, Unbroken line) :
    splitLines (encode (report diagnostics)) =
      (reportLines diagnostics).map fun line => encode (line ++ "\n") := by
  rw [report_eq_join, splitLines_encode_join unbroken]

/-! ### The report on a text -/

/-- No literal that a scanner makes breaks a line, and a tip holds no other literal. -/
theorem parseText_unbroken (text : String) :
    ∀ line ∈ reportLines (parseText text).2, Unbroken line := by
  rw [parseText_eq_lexemes]
  intro line among
  obtain ⟨diagnostic, found, held⟩ := List.mem_flatMap.mp among
  obtain ⟨blames, truthful⟩ := (parse_run (lexemes text.toList)).truthful diagnostic found
  have unbroken : Unbroken diagnostic.token.literal := by
    rcases blames with blamed | ended
    · intro feed
      have blank := (spelled_of_mem_lexemes _ blamed).not_isBlank _ feed
      cases blank
    · rw [ended]
      decide
  exact Diagnostic.unbroken_lines (truthful.unbroken_detail unbroken) line held

/-- The report on a text has three lines for each of its diagnostics, in order, and two texts have
the same report only if they have the same diagnostics. -/
theorem parseText_report_unambiguous (text other : String) :
    splitLines (encode (report (parseText text).2)) =
      ((parseText text).2.flatMap Diagnostic.lines).map (fun line => encode (line ++ "\n")) ∧
    (report (parseText text).2 = report (parseText other).2 ↔
      (parseText text).2 = (parseText other).2) := by
  have lines := splitLines_report (parseText_unbroken text)
  have lines' := splitLines_report (parseText_unbroken other)
  refine ⟨lines, fun same => ?_, congrArg report⟩
  rw [same, lines'] at lines
  have lines := List.map_injective_iff.mpr encode_line_injective lines
  exact (reportLines_injective lines).symm

end ScriptReader
