import Mathlib.Data.List.Basic
import ScriptReader.Text.Lines

/-! # Where a text is cut into lines

Each line has its line feed at the end and none before, and only the last line may lack it. There is
one way to cut a text like this. In UTF-8 no other character has a line feed among its bytes, so the
bytes of a text are cut where its characters are, and every line can be decoded by itself.
-/

namespace ScriptReader

/-- Items are cut behind every feed. What is left behind the last feed is a part too, unless it is
empty. -/
inductive Cut {α : Type} (feed : α) : List α → List (List α) → Prop
  | nil : Cut feed [] []
  | ended {body rest : List α} {parts : List (List α)} (free : feed ∉ body)
      (behind : Cut feed rest parts) : Cut feed (body ++ feed :: rest) ((body ++ [feed]) :: parts)
  | unended {body : List α} (present : body ≠ []) (free : feed ∉ body) : Cut feed body [body]

section Cut

variable {α : Type} {feed : α}

theorem exists_cut (feed : α) (items : List α) : ∃ parts, Cut feed items parts := by
  induction items with
  | nil => exact ⟨[], .nil⟩
  | cons item items ih =>
    obtain ⟨parts, cut⟩ := ih
    by_cases same : item = feed
    · subst same
      exact ⟨[item] :: parts, .ended List.not_mem_nil cut⟩
    · -- The item goes to the front of the first part, or is the only one.
      have stays {body : List α} (free : feed ∉ body) : feed ∉ item :: body :=
        List.not_mem_cons_of_ne_of_not_mem (Ne.symm same) free
      cases cut with
      | nil => exact ⟨[[item]], .unended nofun (stays List.not_mem_nil)⟩
      | ended free behind => exact ⟨_, .ended (stays free) behind⟩
      | unended _ free => exact ⟨_, .unended nofun (stays free)⟩

/-- Behind a feed the cut starts anew. -/
theorem Cut.append {items more : List α} {parts others : List (List α)} (cut : Cut feed items parts)
    (closed : ∀ last ∈ items.getLast?, last = feed) (behind : Cut feed more others) :
    Cut feed (items ++ more) (parts ++ others) := by
  induction cut with
  | nil => exact behind
  | @ended body rest parts free _ ih =>
    rw [List.append_assoc, List.cons_append]
    apply Cut.ended free
    apply ih
    intro last final
    apply closed last
    rw [List.getLast?_append, List.getLast?_cons, final]
    rfl
  | @unended body present free =>
    have final := List.getLast?_eq_some_getLast present
    exact absurd (closed _ final ▸ List.getLast_mem present) free

end Cut

/-! ### Bytes -/

theorem splitLines_of_not_mem {body : List UInt8} (present : body ≠ [])
    (free : '\n'.toUInt8 ∉ body) : splitLines body = [body] := by
  induction body with
  | nil => exact absurd rfl present
  | cons byte body ih =>
    obtain ⟨other, free⟩ := List.ne_and_not_mem_of_not_mem_cons free
    rw [splitLines, if_neg other.symm]
    cases body with
    | nil => rfl
    | cons => rw [ih nofun free]

theorem splitLines_append_cons {body : List UInt8} (free : '\n'.toUInt8 ∉ body)
    (rest : List UInt8) :
    splitLines (body ++ '\n'.toUInt8 :: rest) = (body ++ ['\n'.toUInt8]) :: splitLines rest := by
  induction body with
  | nil => rw [List.nil_append, splitLines, if_pos rfl, List.nil_append]
  | cons byte body ih =>
    obtain ⟨other, free⟩ := List.ne_and_not_mem_of_not_mem_cons free
    rw [List.cons_append, splitLines, if_neg other.symm, ih free]
    rfl

/-- The lines of a text are the only way to cut it. -/
theorem Cut.splitLines_eq {bytes : List UInt8} {lines : List (List UInt8)}
    (cut : Cut '\n'.toUInt8 bytes lines) : splitLines bytes = lines := by
  induction cut with
  | nil => rfl
  | ended free _ ih => rw [splitLines_append_cons free, ih]
  | unended present free => exact splitLines_of_not_mem present free

/-- The bytes of a text in UTF-8. -/
def encode (text : String) : List UInt8 := text.toUTF8.data.toList

theorem encode_eq (text : String) : encode text = text.toList.flatMap String.utf8EncodeChar := by
  rw [encode, String.toUTF8_eq_toByteArray, ← String.utf8Encode_toList, List.utf8Encode,
    List.toList_data_toByteArray]

@[simp] theorem decode?_encode (text : String) : decode? (encode text) = some text := by
  have bytes : (encode text).toByteArray = text.toByteArray := by
    rw [encode_eq, ← List.utf8Encode, String.utf8Encode_toList]
  rw [decode?, bytes, String.fromUTF8?, dif_pos text.isValidUTF8]
  rfl

theorem encode_injective : Function.Injective encode := by
  intro text other same
  have decoded := congrArg decode? same
  rw [decode?_encode, decode?_encode] at decoded
  exact Option.some.inj decoded

/-- No byte of a longer character is a line feed. -/
theorem mem_utf8EncodeChar_iff (c : Char) :
    '\n'.toUInt8 ∈ String.utf8EncodeChar c ↔ c = '\n' := by
  have feed : '\n'.toUInt8 = UInt8.ofNat 10 := rfl
  have same (byte : Nat) : UInt8.ofNat 10 = UInt8.ofNat byte ↔ byte % 256 = 10 := by
    rw [← UInt8.toNat_inj, UInt8.toNat_ofNat', UInt8.toNat_ofNat']
    omega
  have value : c.val.toNat = c.toNat := rfl
  have newline : c = '\n' ↔ c.toNat = 10 := Char.toNat_inj.symm
  unfold String.utf8EncodeChar
  rw [value, feed, newline]
  dsimp only
  split
  · rw [List.mem_singleton, same]
    omega
  · -- All bytes of the character are beyond ASCII.
    refine iff_of_false ?_ (by omega)
    split
    · simp only [List.mem_cons, List.not_mem_nil, or_false, same]
      omega
    · split <;> simp only [List.mem_cons, List.not_mem_nil, or_false, same] <;> omega

/-- Characters and bytes are cut at the same places. -/
theorem Cut.encode {text : List Char} {lines : List (List Char)} (cut : Cut '\n' text lines) :
    Cut '\n'.toUInt8 (text.flatMap String.utf8EncodeChar)
      (lines.map (List.flatMap String.utf8EncodeChar)) := by
  have stays {body : List Char} (free : '\n' ∉ body) :
      '\n'.toUInt8 ∉ body.flatMap String.utf8EncodeChar := by
    intro among
    obtain ⟨c, inside, byte⟩ := List.mem_flatMap.mp among
    rw [(mem_utf8EncodeChar_iff c).mp byte] at inside
    exact free inside
  induction cut with
  | nil => exact .nil
  | ended free _ ih =>
    rw [List.flatMap_append, List.flatMap_cons, List.map_cons, List.flatMap_append]
    exact .ended (stays free) ih
  | @unended body present free =>
    obtain ⟨c, rest, rfl⟩ := List.exists_cons_of_ne_nil present
    apply Cut.unended _ (stays free)
    rw [List.flatMap_cons]
    exact List.append_ne_nil_of_left_ne_nil String.utf8EncodeChar_ne_nil _

theorem getLast?_encode {text : String} (closed : ∀ last ∈ text.toList.getLast?, last = '\n') :
    ∀ last ∈ (encode text).getLast?, last = '\n'.toUInt8 := by
  intro last final
  rw [encode_eq] at final
  rcases text.toList.eq_nil_or_concat' with empty | ⟨before, c, split⟩
  · rw [empty] at final
    cases final
  · rw [split] at final closed
    obtain rfl := closed c List.getLast?_concat
    rw [List.flatMap_append, List.getLast?_append_of_ne_nil _ (by simp)] at final
    exact (Option.some.inj final).symm

/-- A text is cut into bytes as it is cut into characters. -/
theorem splitLines_encode {text : String} {lines : List String}
    (cut : Cut '\n' text.toList (lines.map String.toList)) :
    splitLines (encode text) = lines.map encode := by
  have bytes := cut.encode
  rw [← encode_eq, List.map_map] at bytes
  rw [bytes.splitLines_eq]
  apply List.map_congr_left
  intro line _
  exact (encode_eq line).symm

/-- A text without a line feed. -/
def Unbroken (text : String) : Prop := '\n' ∉ text.toList

instance (text : String) : Decidable (Unbroken text) :=
  inferInstanceAs (Decidable ('\n' ∉ text.toList))

theorem Unbroken.append {text other : String} (unbroken : Unbroken text)
    (unbroken' : Unbroken other) : Unbroken (text ++ other) := by
  rw [Unbroken, String.toList_append, List.mem_append, not_or]
  exact ⟨unbroken, unbroken'⟩

/-- A line can be told from its bytes, with its line feed behind it. -/
theorem encode_line_injective : Function.Injective fun line => encode (line ++ "\n") := by
  intro line other same
  have same := congrArg String.toList (encode_injective same)
  rw [String.toList_append, String.toList_append] at same
  exact String.toList_injective (List.append_cancel_right same)

/-- Texts without line feeds are the lines of the text in which each is ended by one. -/
theorem splitLines_encode_join {lines : List String} (unbroken : ∀ line ∈ lines, Unbroken line) :
    splitLines (encode (String.join (lines.map (· ++ "\n")))) =
      lines.map fun line => encode (line ++ "\n") := by
  have cut : Cut '\n' (String.join (lines.map (· ++ "\n"))).toList
      ((lines.map (· ++ "\n")).map String.toList) := by
    rw [String.toList_join]
    induction lines with
    | nil => exact .nil
    | cons line lines ih =>
      obtain ⟨free, unbroken⟩ := List.forall_mem_cons.mp unbroken
      have ended := Cut.ended free (ih unbroken)
      simpa using ended
  rw [splitLines_encode cut, List.map_map]
  rfl

/-- Every text has lines. -/
theorem exists_lines (text : String) :
    ∃ lines : List String, Cut '\n' text.toList (lines.map String.toList) := by
  obtain ⟨parts, cut⟩ := exists_cut '\n' text.toList
  refine ⟨parts.map String.ofList, ?_⟩
  have same : (parts.map String.ofList).map String.toList = parts := by
    rw [List.map_map]
    exact List.map_id'' (fun _ => String.toList_ofList) parts
  rwa [same]

end ScriptReader
