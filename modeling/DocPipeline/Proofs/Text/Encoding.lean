import DocPipeline.Proofs.Text.Utf8
import Mathlib.Data.List.Forall2
import Mathlib.Tactic.SplitIfs

/-! The bytes of a character. They are of one of four forms, which are told by the leading byte and
the byte behind it, and bytes that begin no character go wrong in one of a few ways.
-/

namespace DocPipeline.Text.Utf8

-----------------------------------------------------------------------------------------
-- Forms
-----------------------------------------------------------------------------------------

/-- The byte is one that continues a character. -/
def Continues (b : UInt8) : Prop :=
  0x80 ≤ b.toNat ∧ b.toNat ≤ 0xBF

/-- The bytes of a character: a leading byte and those behind it. No form is longer than its
character needs, none is that of a surrogate, and none lies past the last character.
-/
inductive IsForm : UInt8 → Bytes → Prop
  | one {lead : UInt8} (leads : lead.toNat < 0x80) : IsForm lead []
  | two {lead b : UInt8} (leads : 0xC2 ≤ lead.toNat ∧ lead.toNat ≤ 0xDF) (second : Continues b)
    : IsForm lead [b]
  | three {lead b c : UInt8} (leads : 0xE0 ≤ lead.toNat ∧ lead.toNat ≤ 0xEF)
    (second : Continues b) (needed : lead.toNat = 0xE0 → 0xA0 ≤ b.toNat)
    (whole : lead.toNat = 0xED → b.toNat ≤ 0x9F) (third : Continues c)
    : IsForm lead [b, c]
  | four {lead b c d : UInt8} (leads : 0xF0 ≤ lead.toNat ∧ lead.toNat ≤ 0xF4)
    (second : Continues b) (needed : lead.toNat = 0xF0 → 0x90 ≤ b.toNat)
    (within : lead.toNat = 0xF4 → b.toNat ≤ 0x8F) (third : Continues c) (fourth : Continues d)
    : IsForm lead [b, c, d]

/-- The bytes lie in the ranges, one by one. -/
abbrev Fits (ranges : List ByteRange) (bytes : Bytes) : Prop :=
  List.Forall₂ (fun range b => range.contains b = true) ranges bytes

theorem contains_iff {range : ByteRange} {b : UInt8}
    : range.contains b = true ↔ range.low.toNat ≤ b.toNat ∧ b.toNat ≤ range.high.toNat := by
  simp [ByteRange.contains, UInt8.le_iff_toNat_le]

theorem contains_continuation {b : UInt8} : continuation.contains b = true ↔ Continues b :=
  contains_iff

/-- What follows a leading byte makes a form with it, by cases on the leading byte. -/
theorem isForm_of_following {lead : UInt8} {ranges : List ByteRange} {tail : Bytes}
    (led : following lead = some ranges) (fits : Fits ranges tail) : IsForm lead tail := by
  simp only [following, UInt8.lt_iff_toNat_lt, UInt8.le_iff_toNat_le, ← UInt8.toNat_inj,
    UInt8.toNat_ofNat] at led
  split_ifs at led <;> obtain rfl := Option.some.inj led
  · rcases fits with _ | _
    exact .one (by omega)
  · rcases fits with _ | ⟨second, _ | _⟩
    exact .two (by omega) (contains_iff.mp second)
  iterate 3
    rcases fits with _ | ⟨second, _ | ⟨third, _ | _⟩⟩
    simp only [contains_iff, continuation, UInt8.toNat_ofNat] at second third
    exact .three (by omega) ⟨by omega, by omega⟩ (by omega) (by omega) third
  iterate 3
    rcases fits with _ | ⟨second, _ | ⟨third, _ | ⟨fourth, _ | _⟩⟩⟩
    simp only [contains_iff, continuation, UInt8.toNat_ofNat] at second third fourth
    exact .four (by omega) ⟨by omega, by omega⟩ (by omega) (by omega) third fourth

/-- A form is what follows its leading byte; the second byte is narrowed for four leading bytes, so
these are cases of their own.
-/
theorem IsForm.following {lead : UInt8} {tail : Bytes} (form : IsForm lead tail)
    : ∃ ranges, following lead = some ranges ∧ Fits ranges tail := by
  simp only [Utf8.following, UInt8.lt_iff_toNat_lt, UInt8.le_iff_toNat_le, ← UInt8.toNat_inj,
    UInt8.toNat_ofNat]
  cases form with
  | one leads =>
      refine ⟨[], ?_, .nil⟩
      rw [if_pos (by omega)]
  | two leads second =>
      refine ⟨[continuation], ?_, .cons (contains_iff.mpr second) .nil⟩
      rw [if_neg (by omega), if_pos (by omega)]
  | three leads second needed whole third =>
      have third := contains_continuation.mpr third
      unfold Continues at second
      rw [if_neg (by omega), if_neg (by omega)]
      split_ifs <;> try omega
      all_goals
        refine ⟨_, rfl, .cons (contains_iff.mpr ?_) (.cons third .nil)⟩
        simp only [continuation, UInt8.toNat_ofNat]
        omega
  | four leads second needed within third fourth =>
      have third := contains_continuation.mpr third
      have fourth := contains_continuation.mpr fourth
      unfold Continues at second
      rw [if_neg (by omega), if_neg (by omega), if_neg (by omega), if_neg (by omega),
        if_neg (by omega)]
      split_ifs <;> try omega
      all_goals
        refine ⟨_, rfl, .cons (contains_iff.mpr ?_) (.cons third (.cons fourth .nil))⟩
        simp only [continuation, UInt8.toNat_ofNat]
        omega

/-- No range is empty. -/
theorem contains_low_of_following {lead : UInt8} {ranges : List ByteRange}
    (led : following lead = some ranges) : ∀ range ∈ ranges, range.contains range.low = true := by
  unfold following at led
  split_ifs at led <;> obtain rfl := Option.some.inj led <;> decide

-----------------------------------------------------------------------------------------
-- Characters
-----------------------------------------------------------------------------------------

/-- An assembled character has the number that its bits make, if some character has. -/
theorem toNat_assemble {lead : UInt8} {tail : Bytes} {number : Nat}
    (joined : tail.foldl (fun n b => n * 64 + b.toNat % 64) (leadBits lead tail.length) = number)
    (valid : number.isValidChar) : (assemble lead tail).val.toNat = number := by
  rw [assemble, joined, Char.ofNat, dif_pos valid]
  rfl

/-- A form is the encoding of the character that it is assembled to, by cases on its length. -/
theorem IsForm.encode_assemble {lead : UInt8} {tail : Bytes} (form : IsForm lead tail)
    : String.utf8EncodeChar (assemble lead tail) = lead :: tail := by
  cases form with
  | one leads =>
      have number : (assemble lead []).val.toNat = lead.toNat :=
        toNat_assemble rfl (by unfold Nat.isValidChar; omega)
      simp only [String.utf8EncodeChar, number]
      rw [if_pos (by omega)]
      simp only [List.cons.injEq, ← UInt8.toNat_inj, UInt8.toNat_ofNat', and_true]
      omega
  | @two b leads second =>
      unfold Continues at second
      have number : (assemble lead [b]).val.toNat = lead.toNat % 32 * 64 + b.toNat % 64 :=
        toNat_assemble rfl (by unfold Nat.isValidChar; omega)
      simp only [String.utf8EncodeChar, number]
      rw [if_neg (by omega), if_pos (by omega)]
      simp only [List.cons.injEq, ← UInt8.toNat_inj, UInt8.toNat_ofNat', and_true]
      omega
  | @three b c leads second needed whole third =>
      unfold Continues at second third
      have number : (assemble lead [b, c]).val.toNat
          = (lead.toNat % 16 * 64 + b.toNat % 64) * 64 + c.toNat % 64 :=
        toNat_assemble rfl (by unfold Nat.isValidChar; omega)
      simp only [String.utf8EncodeChar, number]
      rw [if_neg (by omega), if_neg (by omega), if_pos (by omega)]
      simp only [List.cons.injEq, ← UInt8.toNat_inj, UInt8.toNat_ofNat', and_true]
      omega
  | @four b c d leads second needed within third fourth =>
      unfold Continues at second third fourth
      have number : (assemble lead [b, c, d]).val.toNat
          = ((lead.toNat % 8 * 64 + b.toNat % 64) * 64 + c.toNat % 64) * 64 + d.toNat % 64 :=
        toNat_assemble rfl (by unfold Nat.isValidChar; omega)
      simp only [String.utf8EncodeChar, number]
      rw [if_neg (by omega), if_neg (by omega), if_neg (by omega)]
      simp only [List.cons.injEq, ← UInt8.toNat_inj, UInt8.toNat_ofNat', and_true]
      omega

/-- Every character is encoded in a form, by cases on the size of its number. -/
theorem isForm_of_encode {c : Char} {lead : UInt8} {tail : Bytes}
    (encoded : String.utf8EncodeChar c = lead :: tail) : IsForm lead tail := by
  have valid := c.valid
  unfold UInt32.isValidChar Nat.isValidChar at valid
  simp only [String.utf8EncodeChar] at encoded
  split_ifs at encoded <;> obtain ⟨rfl, rfl⟩ := List.cons.inj encoded
  · refine .one ?_
    rw [UInt8.toNat_ofNat']
    omega
  · refine .two ?_ ?_ <;> simp only [Continues, UInt8.toNat_ofNat'] <;> omega
  · refine .three ?_ ?_ ?_ ?_ ?_ <;> simp only [Continues, UInt8.toNat_ofNat'] <;> omega
  · refine .four ?_ ?_ ?_ ?_ ?_ ?_ <;> simp only [Continues, UInt8.toNat_ofNat'] <;> omega

/-- The encoding of a character is assembled to that character, since no other one has it. -/
theorem assemble_eq {c : Char} {lead : UInt8} {tail : Bytes}
    (encoded : String.utf8EncodeChar c = lead :: tail) : assemble lead tail = c := by
  have same := (isForm_of_encode encoded).encode_assemble.trans encoded.symm
  have alone : [assemble lead tail] = [c] := flatMap_utf8EncodeChar_inj (by simpa using same)
  exact List.cons.inj alone |>.1

/-- The bytes of a character fit what follows their leading byte. -/
theorem fits_of_encode {c : Char} {lead : UInt8} {tail : Bytes} {ranges : List ByteRange}
    (encoded : String.utf8EncodeChar c = lead :: tail) (led : following lead = some ranges)
    : Fits ranges tail := by
  obtain ⟨others, known, fits⟩ := (isForm_of_encode encoded).following
  obtain rfl := Option.some.inj (led.symm.trans known)
  exact fits

theorem exists_encode_eq_cons (c : Char)
    : ∃ lead tail, String.utf8EncodeChar c = lead :: tail :=
  List.exists_cons_of_ne_nil String.utf8EncodeChar_ne_nil

-----------------------------------------------------------------------------------------
-- Beginnings of characters
-----------------------------------------------------------------------------------------

/-- The bytes begin the encoding of a character; they may be all of it. -/
def Begins (bytes : Bytes) : Prop :=
  ∃ c, bytes <+: String.utf8EncodeChar c

/-- Bytes begin a character when they fit the first ranges behind their leading byte: the other
ranges can be filled up with the lowest bytes.
-/
theorem begins_cons_iff {lead : UInt8} {bytes : Bytes}
    : Begins (lead :: bytes)
      ↔ ∃ met left, following lead = some (met ++ left) ∧ Fits met bytes := by
  constructor
  · rintro ⟨c, more, encoded⟩
    obtain ⟨ranges, led, fits⟩ := (isForm_of_encode encoded.symm).following
    exact ⟨ranges.take bytes.length, ranges.drop bytes.length,
      by rw [List.take_append_drop, led], List.forall₂_take_append _ _ _ fits⟩
  · rintro ⟨met, left, led, fits⟩
    have lowest : Fits left (left.map ByteRange.low) := by
      refine List.forall₂_map_right_iff.mpr (List.forall₂_same.mpr ?_)
      intro range member
      exact contains_low_of_following led range (List.mem_append_right met member)
    have form := isForm_of_following led (List.rel_append fits lowest)
    exact ⟨_, left.map ByteRange.low, form.encode_assemble.symm⟩

/-- The bytes begin with a whole character. -/
def StartsWithChar (bytes : Bytes) : Prop :=
  ∃ c, String.utf8EncodeChar c <+: bytes

theorem not_startsWithChar_nil : ¬ StartsWithChar [] := by
  rintro ⟨c, begins⟩
  exact String.utf8EncodeChar_ne_nil (List.prefix_nil.mp begins)

theorem startsWithChar_iff {bytes : Bytes}
    : StartsWithChar bytes
      ↔ ∃ lead tail rest, bytes = lead :: (tail ++ rest) ∧ IsForm lead tail := by
  constructor
  · rintro ⟨c, rest, rfl⟩
    obtain ⟨lead, tail, encoded⟩ := exists_encode_eq_cons c
    exact ⟨lead, tail, rest, by rw [encoded, List.cons_append], isForm_of_encode encoded⟩
  · rintro ⟨lead, tail, rest, rfl, form⟩
    exact ⟨_, rest, by rw [form.encode_assemble, List.cons_append]⟩

-----------------------------------------------------------------------------------------
-- Flaws
-----------------------------------------------------------------------------------------

/-- How many bytes a leading byte asks for. -/
def wanted (lead : UInt8) : Nat :=
  if lead.toNat < 0xE0 then 1 else if lead.toNat < 0xF0 then 2 else 3

/-- The ways in which the front of a byte sequence is no character. -/
inductive Flaw : Bytes → Prop
  /-- A byte continues nothing. -/
  | stray {lead : UInt8} {rest : Bytes} (continues : Continues lead) : Flaw (lead :: rest)
  /-- A character of one byte would have two. -/
  | twoForOne {lead : UInt8} {rest : Bytes} (leads : lead.toNat = 0xC0 ∨ lead.toNat = 0xC1)
    : Flaw (lead :: rest)
  /-- A character would have more bytes than it needs. -/
  | overlong {lead b : UInt8} {rest : Bytes} (second : Continues b)
    (padded : lead.toNat = 0xE0 ∧ b.toNat < 0xA0 ∨ lead.toNat = 0xF0 ∧ b.toNat < 0x90)
    : Flaw (lead :: b :: rest)
  /-- The number is one of half a pair. -/
  | surrogate {lead b : UInt8} {rest : Bytes} (second : Continues b) (leads : lead.toNat = 0xED)
    (half : 0xA0 ≤ b.toNat) : Flaw (lead :: b :: rest)
  /-- The number lies past the last character. -/
  | beyond {lead b : UInt8} {rest : Bytes} (second : Continues b) (leads : lead.toNat = 0xF4)
    (past : 0x90 ≤ b.toNat) : Flaw (lead :: b :: rest)
  /-- All numbers with this leading byte lie past the last character. -/
  | farBeyond {lead : UInt8} {rest : Bytes} (leads : 0xF5 ≤ lead.toNat) : Flaw (lead :: rest)
  /-- A byte is missing that should continue the character. -/
  | missing {lead : UInt8} {tail rest : Bytes}
    (leads : 0xC2 ≤ lead.toNat ∧ lead.toNat ≤ 0xF4) (short : tail.length < wanted lead)
    (continued : ∀ b ∈ tail, Continues b) (ends : ∀ b ∈ rest.head?, ¬ Continues b)
    : Flaw (lead :: (tail ++ rest))

theorem IsForm.continues {lead : UInt8} {tail : Bytes} (form : IsForm lead tail)
    : ∀ b ∈ tail, Continues b := by
  cases form <;> simp_all

theorem IsForm.length_eq {lead : UInt8} {tail : Bytes} (form : IsForm lead tail)
    (long : 0x80 ≤ lead.toNat) : tail.length = wanted lead := by
  unfold wanted
  cases form <;> simp only [List.length_nil, List.length_cons] <;> split_ifs <;> omega

/-- Bytes with a flaw do not begin with a character: each flaw contradicts every form. -/
theorem Flaw.not_startsWithChar {bytes : Bytes} (flaw : Flaw bytes) : ¬ StartsWithChar bytes := by
  rw [startsWithChar_iff]
  rintro ⟨lead, tail, rest, rfl, form⟩
  generalize same : lead :: (tail ++ rest) = bytes at flaw
  cases flaw with
  | stray continues =>
      obtain ⟨rfl, _⟩ := List.cons.inj same
      unfold Continues at continues
      cases form <;> omega
  | twoForOne leads | farBeyond leads =>
      obtain ⟨rfl, _⟩ := List.cons.inj same
      cases form <;> omega
  | overlong second wrong | surrogate second leads wrong | beyond second leads wrong =>
      obtain ⟨rfl, behind⟩ := List.cons.inj same
      cases form with
      | one | two => omega
      | three | four =>
          obtain ⟨rfl, _⟩ := List.cons.inj behind
          omega
  | @missing _ begun others leads short continued ends =>
      obtain ⟨rfl, behind⟩ := List.cons.inj same
      have shorter : begun.length < tail.length := by rwa [form.length_eq (by omega)]
      obtain ⟨more, rfl⟩ : begun <+: tail :=
        List.prefix_of_prefix_length_le ⟨others, behind.symm⟩ (List.prefix_append tail rest)
          (Nat.le_of_lt shorter)
      cases more with
      | nil => simp at shorter
      | cons b more =>
          rw [List.append_assoc, List.append_cancel_left_eq] at behind
          exact ends b (by simp [← behind]) (form.continues b (by simp))

/-- Bytes that do not begin with a character have a flaw, by cases on the leading byte and, one by
one, on the bytes that should continue it.
-/
theorem flaw_of_not_startsWithChar {bytes : Bytes} (some : bytes ≠ [])
    (charless : ¬ StartsWithChar bytes) : Flaw bytes := by
  obtain ⟨lead, rest, rfl⟩ := List.exists_cons_of_ne_nil some
  have formless {tail others : Bytes} (same : rest = tail ++ others) : ¬ IsForm lead tail :=
    fun form => charless (startsWithChar_iff.mpr ⟨lead, tail, others, by rw [same], form⟩)
  have ascii : 0x80 ≤ lead.toNat := by
    by_contra small
    exact formless rfl (.one (by omega))
  by_cases stray : lead.toNat ≤ 0xBF
  · exact .stray ⟨ascii, stray⟩
  by_cases twoForOne : lead.toNat ≤ 0xC1
  · exact .twoForOne (by omega)
  by_cases far : 0xF5 ≤ lead.toNat
  · exact .farBeyond far
  have stops {tail others : Bytes} (short : tail.length < wanted lead)
      (continued : ∀ b ∈ tail, Continues b) (ends : ∀ b ∈ others.head?, ¬ Continues b)
      : Flaw (lead :: (tail ++ others)) :=
    .missing (by omega) short continued ends
  have wants : 1 ≤ wanted lead ∧ (0xE0 ≤ lead.toNat → 2 ≤ wanted lead)
      ∧ (0xF0 ≤ lead.toNat → 3 ≤ wanted lead) := by
    unfold wanted
    split_ifs <;> omega
  rcases rest with _ | ⟨b, rest⟩
  · exact @stops [] [] wants.1 (by simp) (by simp)
  by_cases second : Continues b
  case neg => exact @stops [] (b :: rest) wants.1 (by simp) (by simpa using second)
  have long : 0xE0 ≤ lead.toNat := by
    by_contra small
    exact formless rfl (.two (by omega) second)
  by_cases padded : lead.toNat = 0xE0 ∧ b.toNat < 0xA0 ∨ lead.toNat = 0xF0 ∧ b.toNat < 0x90
  · exact .overlong second padded
  by_cases half : lead.toNat = 0xED ∧ 0xA0 ≤ b.toNat
  · exact .surrogate second half.1 half.2
  by_cases past : lead.toNat = 0xF4 ∧ 0x90 ≤ b.toNat
  · exact .beyond second past.1 past.2
  rcases rest with _ | ⟨c, rest⟩
  · exact @stops [b] [] (wants.2.1 long) (by simpa using second) (by simp)
  by_cases third : Continues c
  case neg =>
    exact @stops [b] (c :: rest) (wants.2.1 long) (by simpa using second) (by simpa using third)
  have longest : 0xF0 ≤ lead.toNat := by
    by_contra small
    exact formless rfl (.three (by omega) second (by omega) (by omega) third)
  rcases rest with _ | ⟨d, rest⟩
  · exact @stops [b, c] [] (wants.2.2 longest) (by simpa using ⟨second, third⟩) (by simp)
  by_cases fourth : Continues d
  case neg =>
    exact @stops [b, c] (d :: rest) (wants.2.2 longest) (by simpa using ⟨second, third⟩)
      (by simpa using fourth)
  exact absurd (.four (by omega) second (by omega) (by omega) third fourth)
    (@formless [b, c, d] rest rfl)

end DocPipeline.Text.Utf8
