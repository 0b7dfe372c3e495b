import DocPipeline.Preview
import DocPipeline.Text.Utf8

/-! Previews of texts. A place that is found by counting characters never lies inside one, so a
preview is whole characters of its text, and two previews of one text differ in how many only.
-/

namespace DocPipeline

namespace Text

variable {text front back : String} {place last : text.Pos} {count : Nat}

/-- Between a place and one that is found behind it lie so many characters, by induction on their
number.
-/
theorem splits_of_placeBehind? (found : placeBehind? place count = some last)
    (splits : place.Splits front back)
    : ∃ between rest,
        between.length = count ∧ back = between ++ rest ∧ last.Splits (front ++ between) rest := by
  induction count generalizing place front back with
  | zero =>
      unfold placeBehind? at found
      split at found
      · cases found
      · cases found
        exact ⟨"", back, rfl, String.empty_append.symm, by rwa [String.append_empty]⟩
  | succ count ih =>
      unfold placeBehind? at found
      split at found
      · cases found
      · next inside =>
          obtain ⟨behind, rfl⟩ := splits.exists_eq_singleton_append inside
          obtain ⟨between, rest, counted, rfl, further⟩ := ih found splits.next
          refine ⟨String.singleton (place.get inside) ++ between, rest, ?_, ?_, ?_⟩
          · rw [String.length_append, String.length_singleton, counted, Nat.add_comm]
          · rw [String.append_assoc]
          · rwa [← String.append_assoc]

/-- No place is found only if there are not more characters, by induction on their number. -/
theorem length_le_of_placeBehind? (none : placeBehind? place count = none)
    (splits : place.Splits front back) : back.length ≤ count := by
  have ended (ends : place = text.endPos) : back.length = 0 := by
    subst ends
    rw [(String.splits_endPos_iff.mp splits).2]
    rfl
  induction count generalizing place front back with
  | zero =>
      unfold placeBehind? at none
      split at none
      · next ends => exact Nat.le_of_eq (ended ends)
      · cases none
  | succ count ih =>
      unfold placeBehind? at none
      split at none
      · next ends => exact ended ends ▸ Nat.zero_le _
      · next inside =>
          obtain ⟨behind, rfl⟩ := splits.exists_eq_singleton_append inside
          have shorter : behind.length ≤ count := by
            refine ih none splits.next fun ends => ?_
            have splits := splits.next
            rw [ends] at splits
            rw [(String.splits_endPos_iff.mp splits).2]
            rfl
          rw [String.length_append, String.length_singleton]
          omega

end Text

/-- A text goes on behind its preview, which has as many characters as are wanted or there are. -/
theorem preview_append (text : String) (count : Nat)
    : ∃ rest, text = preview text count ++ rest
        ∧ (preview text count).length = min count text.length := by
  cases found : Text.placeBehind? text.startPos count with
  | none =>
      have short := Text.length_le_of_placeBehind? found (String.splits_startPos text)
      have whole : preview text count = text := by simp only [preview, found]
      exact ⟨"", by rw [whole, String.append_empty], by rw [whole, Nat.min_eq_right short]⟩
  | some place =>
      obtain ⟨shown, rest, counted, parts, splits⟩ :=
        Text.splits_of_placeBehind? found (String.splits_startPos text)
      rw [String.empty_append] at splits
      have cut : preview text count = shown := by
        simp only [preview, found]
        exact place.splits.eq_left splits
      have enough : count ≤ text.length := by
        rw [parts, String.length_append, counted]
        exact Nat.le_add_right _ _
      exact ⟨rest, by rw [cut, parts], by rw [cut, counted, Nat.min_eq_left enough]⟩

/-- The characters of a preview are the first ones of its text. -/
theorem toList_preview (text : String) (count : Nat)
    : (preview text count).toList = text.toList.take count := by
  obtain ⟨rest, parts, counted⟩ := preview_append text count
  have begins : (preview text count).toList <+: text.toList :=
    ⟨rest.toList, by rw [← String.toList_append, ← parts]⟩
  rw [List.prefix_iff_eq_take.mp begins, String.length_toList, counted, ← String.length_toList,
    ← List.take_eq_take_min]

/-- A preview takes whole characters from the front of a text. Its bytes are the first ones of the
text, and the others are those of a text as well; it has as many characters as are wanted, or as
there are. A preview of a preview is the shorter of both, a text is its own preview exactly if it
has no more characters than are wanted, and a shorter preview begins a longer one.
-/
theorem preview_takes_characters (text : String) (a b : Nat)
    : (∃ rest, Text.Utf8.encode text
          = Text.Utf8.encode (preview text a) ++ Text.Utf8.encode rest)
      ∧ (preview text a).length = min a text.length
      ∧ preview (preview text a) b = preview text (min a b)
      ∧ (preview text a = text ↔ text.length ≤ a)
      ∧ (a ≤ b → Text.Utf8.encode (preview text a) <+: Text.Utf8.encode (preview text b)) := by
  obtain ⟨rest, parts, counted⟩ := preview_append text a
  have again : preview (preview text a) b = preview text (min a b) := by
    rw [← String.toList_inj, toList_preview, toList_preview, toList_preview, List.take_take,
      Nat.min_comm]
  refine ⟨⟨rest, ?_⟩, counted, again, ?_, fun shorter => ?_⟩
  · rw [Text.Utf8.encode, Text.Utf8.encode, Text.Utf8.encode, ← List.flatMap_append,
      ← String.toList_append, ← parts]
  · constructor
    · intro whole
      rw [whole] at counted
      omega
    · intro short
      rw [← String.toList_inj, toList_preview, List.take_of_length_le]
      rwa [String.length_toList]
  · obtain ⟨more, longer⟩ := List.take_prefix_take_left (l := text.toList) shorter
    refine ⟨more.flatMap String.utf8EncodeChar, ?_⟩
    rw [Text.Utf8.encode, Text.Utf8.encode, toList_preview, toList_preview, ← List.flatMap_append,
      longer]

/-- Three characters of a word are five of its seven bytes, and begin what four characters are. -/
theorem preview_takes_characters_of_accents
    : 3 ≤ 4 ∧ (Text.Utf8.encode (preview "élève" 3)).length = 5
      ∧ preview "élève" 3 = "élè"
      ∧ Text.Utf8.encode (preview "élève" 3) <+: Text.Utf8.encode (preview "élève" 4) := by
  obtain ⟨_, _, _, _, longer⟩ := preview_takes_characters "élève" 3 4
  exact ⟨by decide, by decide +kernel, by decide +kernel, longer (by decide)⟩

end DocPipeline
