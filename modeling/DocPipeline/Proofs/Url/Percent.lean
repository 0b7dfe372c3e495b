import DocPipeline.Proofs.Text.Utf8
import DocPipeline.Url.Percent

/-! Percent escapes lose nothing. Whatever is reserved, decoding gives back the bytes of the text as
long as the percent sign is reserved itself, and no reserved character is left in the escaped text
unless escapes are made of it.
-/

namespace DocPipeline.Url

/-- A digit that is written is read back, by looking at all sixteen. -/
theorem hexValue?_hexDigit {n : Nat} (small : n < 16) : hexValue? (hexDigit n) = some n := by
  revert n
  decide

/-- An escape is read back as its byte, by its two digits. -/
theorem decode_escapeByte (b : UInt8) (rest : List Char)
    : decode (escapeByte b ++ rest) = b :: decode rest := by
  have high : b.toNat / 16 < 16 := Nat.div_lt_of_lt_mul b.toNat_lt
  have low : b.toNat % 16 < 16 := Nat.mod_lt _ (by decide)
  have whole : 16 * (b.toNat / 16) + b.toNat % 16 = b.toNat := Nat.div_add_mod _ 16
  simp only [escapeByte, List.cons_append, List.nil_append, decode, hexValue?_hexDigit high,
    hexValue?_hexDigit low, whole, UInt8.ofNat_toNat]

/-- Escapes are read back as their bytes, by induction on the bytes. -/
theorem decode_escapeBytes (bytes : Bytes) (rest : List Char)
    : decode (bytes.flatMap escapeByte ++ rest) = bytes ++ decode rest := by
  induction bytes with
  | nil => rfl
  | cons b bytes ih =>
      rw [List.flatMap_cons, List.append_assoc, decode_escapeByte, ih, List.cons_append]

/-- A character that begins no escape is read as its own bytes. -/
theorem decode_cons_of_ne {c : Char} (rest : List Char) (plain : c ≠ '%')
    : decode (c :: rest) = String.utf8EncodeChar c ++ decode rest := by
  rw [decode]
  intro _ _ _ same _
  exact plain same

variable {reserved : Char → Bool}

/-- An encoded character is read back, whether it is escaped or stands for itself. -/
theorem decode_encodeChar (percent : reserved '%' = true) (c : Char) (rest : List Char)
    : decode (encodeChar reserved c ++ rest) = String.utf8EncodeChar c ++ decode rest := by
  unfold encodeChar
  by_cases escaped : reserved c = true
  · rw [if_pos escaped, decode_escapeBytes]
  · rw [if_neg escaped]
    exact decode_cons_of_ne rest fun same => escaped (same ▸ percent)

/-- An encoded text is read back as its bytes, by induction on the text. -/
theorem decode_encode (percent : reserved '%' = true) (cs : List Char)
    : decode (encode reserved cs) = cs.flatMap String.utf8EncodeChar := by
  induction cs with
  | nil => rfl
  | cons c cs ih =>
      change decode (encodeChar reserved c ++ encode reserved cs) = _
      rw [decode_encodeChar percent, ih, List.flatMap_cons]

/-- A digit of an escape is a digit or a capital letter up to F, by looking at all sixteen. -/
theorem hexDigit_mem {n : Nat} (small : n < 16) : hexDigit n ∈ "0123456789ABCDEF".toList := by
  revert n
  decide

/-- The characters of an escape are the percent sign and digits. -/
theorem mem_of_mem_escapeByte {b : UInt8} {c : Char} (member : c ∈ escapeByte b)
    : c ∈ '%' :: "0123456789ABCDEF".toList := by
  simp only [escapeByte, List.mem_cons, List.not_mem_nil, or_false] at member
  rcases member with rfl | rfl | rfl
  · exact List.mem_cons_self
  · exact List.mem_cons_of_mem _ (hexDigit_mem (Nat.div_lt_of_lt_mul b.toNat_lt))
  · exact List.mem_cons_of_mem _ (hexDigit_mem (Nat.mod_lt _ (by decide)))

/-- A reserved character that no escape is made of is not left in an encoded text. -/
theorem not_mem_encode {c : Char} (kept : reserved c = true)
    (other : c ∉ '%' :: "0123456789ABCDEF".toList) (cs : List Char)
    : c ∉ encode reserved cs := by
  intro member
  obtain ⟨d, _, inside⟩ := List.mem_flatMap.mp member
  unfold encodeChar at inside
  by_cases escaped : reserved d = true
  · rw [if_pos escaped] at inside
    obtain ⟨b, _, here⟩ := List.mem_flatMap.mp inside
    exact other (mem_of_mem_escapeByte here)
  · rw [if_neg escaped, List.mem_singleton] at inside
    exact escaped (inside ▸ kept)

/-- A character that no escape is made of stands in an encoded text only if it did before. -/
theorem mem_of_mem_encode {c : Char} {cs : List Char}
    (other : c ∉ '%' :: "0123456789ABCDEF".toList) (member : c ∈ encode reserved cs) : c ∈ cs := by
  obtain ⟨d, spelled, inside⟩ := List.mem_flatMap.mp member
  unfold encodeChar at inside
  split at inside
  · obtain ⟨b, _, here⟩ := List.mem_flatMap.mp inside
    exact absurd (mem_of_mem_escapeByte here) other
  · rwa [List.mem_singleton.mp inside]

/-- What a path reserves besides controls, one by one. -/
theorem inPath_eq : inPath = fun c => isControl c || " \"<>\x60#?\x7b\x7d".toList.contains c := by
  funext c
  simp only [inPath, inFragment]
  simp
  grind

/-- What a segment reserves besides controls, one by one. -/
theorem inWebSegment_eq
    : inWebSegment = fun c => isControl c || " \"<>\x60#?\x7b\x7d/%\\".toList.contains c := by
  funext c
  simp only [inWebSegment, inSegment, inPath_eq]
  simp
  grind

end DocPipeline.Url
