import Mathlib.Data.List.Basic

/-! # Texts that end by themselves

A text ends by itself if it can be told from all other texts whatever stands behind it: characters
that begin with the text begin with no other one. When the texts of some items end by themselves, so
do the texts of lists of such items, as long as what leads to the next item differs from what closes
the list.
-/

namespace ScriptReader

/-- How items are written: which ones there are, what is kept of them, and what may stand behind. -/
structure Code (α β : Type) where
  fits : α → Prop
  text : α → List Char
  kept : α → β
  ends : List Char → Prop

namespace Code

variable {α β : Type}

/-- What is kept of the item, and where its text ends, can be told from the characters. -/
def Delimits (code : Code α β) (item : α) : Prop :=
  ∀ ⦃other : α⦄ ⦃rest rest' : List Char⦄, code.fits other → code.ends rest → code.ends rest' →
    code.text item ++ rest = code.text other ++ rest' →
      code.kept item = code.kept other ∧ rest = rest'

/-- Lists of items, with the same characters before each one and others at the end. -/
def led (code : Code α β) (lead close : List Char) (final : List Char → Prop) :
    Code (List α) (List β) where
  fits items := ∀ item ∈ items, code.fits item
  text items := items.flatMap (fun item => lead ++ code.text item) ++ close
  kept := List.map code.kept
  ends := final

/-- Lists of items, with the same characters between them and others at the end. -/
def listed (code : Code α β) (separator close : List Char) (final : List Char → Prop) :
    Code (List α) (List β) where
  fits items := ∀ item ∈ items, code.fits item
  text items := separator.intercalate (items.map code.text) ++ close
  kept := List.map code.kept
  ends := final

/-- Behind an item it is clear whether another one follows or the list is closed. -/
structure Parts (code : Code α β) (lead close : List Char) (final : List Char → Prop) : Prop where
  leads : ∀ {item rest}, code.fits item → code.ends rest →
    code.ends (lead ++ (code.text item ++ rest))
  closes : ∀ {rest}, final rest → code.ends (close ++ rest)
  apart : ∀ {item rest rest'}, code.fits item → code.ends rest → final rest' →
    lead ++ (code.text item ++ rest) ≠ close ++ rest'

variable {code : Code α β} {lead close : List Char} {final : List Char → Prop}

theorem led_cons (item : α) (items : List α) (rest : List Char) :
    (code.led lead close final).text (item :: items) ++ rest =
      lead ++ (code.text item ++ ((code.led lead close final).text items ++ rest)) := by
  simp only [led, List.flatMap_cons, List.append_assoc]

theorem listed_cons (item : α) (items : List α) (rest : List Char) :
    (code.listed lead close final).text (item :: items) ++ rest =
      code.text item ++ ((code.led lead close final).text items ++ rest) := by
  induction items generalizing item with
  | nil => simp [led, listed]
  | cons next items ih =>
    rw [led_cons, ← ih]
    simp only [listed, List.map_cons, List.intercalate_cons_cons, List.append_assoc]

/-- A list of items may stand behind an item. -/
theorem Parts.ends_led (parts : code.Parts lead close final) {items : List α} {rest : List Char}
    (fits : ∀ item ∈ items, code.fits item) (ends : final rest) :
    code.ends ((code.led lead close final).text items ++ rest) := by
  induction items with
  | nil => exact parts.closes ends
  | cons item items ih =>
    obtain ⟨fits, fits'⟩ := List.forall_mem_cons.mp fits
    rw [led_cons]
    exact parts.leads fits (ih fits')

/-- The text of a list ends by itself if the texts of its items do. -/
theorem Parts.delimits_led (parts : code.Parts lead close final) {items : List α}
    (fits : ∀ item ∈ items, code.fits item) (each : ∀ item ∈ items, code.Delimits item) :
    (code.led lead close final).Delimits items := by
  induction items with
  | nil =>
    intro others rest rest' fits' ends ends' same
    cases others with
    | nil => exact ⟨rfl, List.append_cancel_left same⟩
    | cons other others =>
      obtain ⟨fits', fits''⟩ := List.forall_mem_cons.mp fits'
      rw [led_cons] at same
      exact (parts.apart fits' (parts.ends_led fits'' ends') ends same.symm).elim
  | cons item items ih =>
    obtain ⟨fits, behind⟩ := List.forall_mem_cons.mp fits
    obtain ⟨delimits, each⟩ := List.forall_mem_cons.mp each
    intro others rest rest' fits' ends ends' same
    cases others with
    | nil =>
      rw [led_cons] at same
      exact (parts.apart fits (parts.ends_led behind ends) ends' same).elim
    | cons other others =>
      obtain ⟨fits', behind'⟩ := List.forall_mem_cons.mp fits'
      rw [led_cons, led_cons] at same
      obtain ⟨kept, same⟩ := delimits fits' (parts.ends_led behind ends)
        (parts.ends_led behind' ends') (List.append_cancel_left same)
      obtain ⟨kept', rfl⟩ := ih behind each behind' ends ends' same
      exact ⟨congrArg₂ List.cons kept kept', rfl⟩

/-- The text of a list of separated items ends by itself if the list cannot be mistaken for an empty
one. -/
theorem Parts.delimits_listed (parts : code.Parts lead close final)
    (begins : ∀ {item rest rest'}, code.fits item → code.ends rest → final rest' →
      code.text item ++ rest ≠ close ++ rest') {items : List α}
    (fits : ∀ item ∈ items, code.fits item) (each : ∀ item ∈ items, code.Delimits item) :
    (code.listed lead close final).Delimits items := by
  intro others rest rest' fits' ends ends' same
  cases items with
  | nil =>
    cases others with
    | nil => exact ⟨rfl, List.append_cancel_left same⟩
    | cons other others =>
      obtain ⟨fits', behind'⟩ := List.forall_mem_cons.mp fits'
      rw [listed_cons] at same
      exact (begins fits' (parts.ends_led behind' ends') ends same.symm).elim
  | cons item items =>
    obtain ⟨fits, behind⟩ := List.forall_mem_cons.mp fits
    obtain ⟨delimits, each⟩ := List.forall_mem_cons.mp each
    cases others with
    | nil =>
      rw [listed_cons] at same
      exact (begins fits (parts.ends_led behind ends) ends' same).elim
    | cons other others =>
      obtain ⟨fits', behind'⟩ := List.forall_mem_cons.mp fits'
      rw [listed_cons, listed_cons] at same
      obtain ⟨kept, same⟩ := delimits fits' (parts.ends_led behind ends)
        (parts.ends_led behind' ends') same
      obtain ⟨kept', rfl⟩ := parts.delimits_led behind each behind' ends ends' same
      exact ⟨congrArg₂ List.cons kept kept', rfl⟩

end Code

end ScriptReader
