import ScriptReader.Proofs.Lines
import ScriptReader.Proofs.Quotation
import ScriptReader.Shell

/-! # Listed tokens

The text of a token is the name of its kind, a space and its quoted literal. The name has letters
only and the quotation ends by itself, so the text tells the token, and it stays on one line. The
lines of a listing are therefore the texts of the tokens listed, and of no other tokens.
-/

namespace ScriptReader

namespace Kind

theorem name_injective : Function.Injective name := by
  intro kind other same
  have found := ofName?_name kind
  rw [same, ofName?_name] at found
  exact (Option.some.inj found).symm

theorem isAlpha_name (kind : Kind) : ∀ c ∈ kind.name.toList, c.isAlpha = true := by
  rw [← List.all_eq_true]
  cases kind <;> rfl

theorem not_control_name (kind : Kind) : ∀ c ∈ kind.name.toList, ¬ Control c :=
  fun c among => not_control_of_isAlpha (kind.isAlpha_name c among)

/-- A name ends where something else than a letter follows. -/
theorem name_delimits {kind other : Kind} {rest rest' : List Char}
    (ends : ∀ next ∈ rest.head?, next.isAlpha = false)
    (ends' : ∀ next ∈ rest'.head?, next.isAlpha = false)
    (same : kind.name.toList ++ rest = other.name.toList ++ rest') :
    kind = other ∧ rest = rest' := by
  obtain ⟨name, behind⟩ :=
    run_eq_of_append_eq kind.isAlpha_name other.isAlpha_name ends ends' same
  constructor
  · exact name_injective (String.toList_injective name)
  · exact behind

end Kind

namespace Token

theorem toList_text (token : Token) : token.text.toList =
    token.kind.name.toList ++ ' ' :: (quote token.literal).toList := by
  simp [text]

theorem text_injective : Function.Injective text := by
  intro token other same
  have same := congrArg String.toList same
  rw [toList_text, toList_text] at same
  have spaced (rest : List Char) : ∀ next ∈ (' ' :: rest).head?, next.isAlpha = false := by
    rintro next ⟨⟩
    rfl
  obtain ⟨kind, behind⟩ := Kind.name_delimits (spaced _) (spaced _) same
  have literal : token.literal = other.literal :=
    quote_injective (String.toList_injective (List.tail_eq_of_cons_eq behind))
  cases token
  cases other
  exact congrArg₂ Token.mk kind literal

theorem not_control_text (token : Token) : ∀ c ∈ token.text.toList, ¬ Control c := by
  rw [toList_text, List.forall_mem_append, List.forall_mem_cons]
  refine ⟨token.kind.not_control_name, ?_, not_control_quote token.literal⟩
  decide

theorem unbroken_text (token : Token) : Unbroken token.text :=
  fun feed => token.not_control_text _ feed (by decide)

end Token

variable {σ : Type} [TokenStream σ]

theorem splitLines_listing (source : σ) : splitLines (encode (Shell.listing source)) =
    (TokenStream.drain source).map fun token => encode (token.text ++ "\n") := by
  have unbroken : ∀ line ∈ (TokenStream.drain source).map Token.text, Unbroken line := by
    intro line among
    obtain ⟨token, -, rfl⟩ := List.mem_map.mp among
    exact token.unbroken_text
  have lines := splitLines_encode_join unbroken
  rw [List.map_map, List.map_map] at lines
  exact lines

/-- The text of a token tells the token and holds no control character. So the lines that the shell
lists for a source are the texts of the tokens the source yields, and of no other tokens. -/
theorem listing_unambiguous (source : σ) :
    Function.Injective Token.text ∧
    (∀ token : Token, ∀ c ∈ token.text.toList, ¬ Control c) ∧
    ∀ tokens : List Token,
      splitLines (encode (Shell.answer .tokens source)) =
          tokens.map (fun token => encode (token.text ++ "\n")) ↔
        tokens = TokenStream.drain source := by
  refine ⟨Token.text_injective, Token.not_control_text, fun tokens => ?_⟩
  rw [Shell.answer, splitLines_listing]
  constructor
  · intro same
    have lines := encode_line_injective.comp Token.text_injective
    exact (List.map_injective_iff.mpr lines same).symm
  · rintro rfl
    rfl

end ScriptReader
