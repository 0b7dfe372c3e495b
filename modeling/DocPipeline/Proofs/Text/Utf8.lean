import DocPipeline.Text.Utf8

/-! Every text has its own bytes. -/

namespace DocPipeline.Text.Utf8

/-- Two texts of the same bytes are the same, since the bytes of a text are those of its string. -/
theorem flatMap_utf8EncodeChar_inj {cs ds : List Char}
    (same : cs.flatMap String.utf8EncodeChar = ds.flatMap String.utf8EncodeChar) : cs = ds := by
  have bytes : (String.ofList cs).toByteArray = (String.ofList ds).toByteArray := by
    simp only [String.toByteArray_ofList, List.utf8Encode, same]
  exact String.ofList_injective (String.toByteArray_inj.mp bytes)

/-- A text whose bytes begin those of another text begins that text. -/
theorem prefix_of_flatMap_prefix {cs ds : List Char}
    (begins : cs.flatMap String.utf8EncodeChar <+: ds.flatMap String.utf8EncodeChar)
    : cs <+: ds := by
  obtain ⟨rest, same⟩ := begins
  refine List.isPrefix_of_utf8Encode_append_eq_utf8Encode rest.toByteArray ?_
  rw [List.utf8Encode, List.utf8Encode, ← same, List.toByteArray_append]

end DocPipeline.Text.Utf8
