import DocPipeline.Proofs.Text.Encoding
import Mathlib.Data.List.Infix
import Mathlib.Order.Bounds.Basic

/-! Reading bytes piece by piece. A piece is the character that the bytes begin with, or else the
longest beginning of a character that stands there; so the characters that are read before the first
ill-formed piece are all of the text at the front.
-/

namespace DocPipeline.Text.Utf8

-----------------------------------------------------------------------------------------
-- The piece at the front
-----------------------------------------------------------------------------------------

/-- The piece is all that can be said about bytes that do not begin with a character: the longest
beginning of one that stands there, or a single byte if there is none.
-/
structure IllFormed (piece rest : Bytes) : Prop where
  nonempty : piece ≠ []
  charless : ¬ StartsWithChar (piece ++ rest)
  longest : ∀ longer, longer <+: piece ++ rest → Begins longer → longer.length ≤ piece.length
  begins_or_single : Begins piece ∨ piece.length = 1

/-- The piece at the front of bytes, and what follows it. -/
inductive IsFront : Bytes → Piece → Bytes → Prop
  | char (c : Char) (rest : Bytes)
    : IsFront (String.utf8EncodeChar c ++ rest) (.char c) rest
  | invalid {piece rest : Bytes} (ill : IllFormed piece rest) (broken : ¬ Begins (piece ++ rest))
    : IsFront (piece ++ rest) (.invalid piece) rest
  | cut {piece : Bytes} (ill : IllFormed piece []) (begins : Begins piece)
    : IsFront piece (.cut piece) []

/-- The bytes that are taken meet the first ranges, and the byte behind them misses the next one; by
induction on the ranges.
-/
theorem takeFollowing_met {ranges left : List ByteRange} {bytes taken rest : Bytes}
    (takes : takeFollowing ranges bytes = (taken, left, rest))
    : ∃ met, ranges = met ++ left ∧ bytes = taken ++ rest ∧ Fits met taken
        ∧ ∀ range ∈ left.head?, ∀ b ∈ rest.head?, range.contains b = false := by
  induction ranges generalizing bytes taken with
  | nil =>
      cases takes
      exact ⟨[], rfl, rfl, .nil, by simp⟩
  | cons range ranges ih =>
      cases bytes with
      | nil =>
          cases takes
          exact ⟨[], rfl, rfl, .nil, by simp⟩
      | cons b bytes =>
          rw [takeFollowing] at takes
          split at takes
          case isTrue inside =>
            rcases further : takeFollowing ranges bytes with ⟨others, more, behind⟩
            rw [further] at takes
            cases takes
            obtain ⟨met, rfl, rfl, fits, misses⟩ := ih further
            exact ⟨range :: met, rfl, rfl, .cons inside fits, misses⟩
          case isFalse outside =>
            cases takes
            exact ⟨[], rfl, rfl, .nil, by simpa using outside⟩

/-- Bytes that fit all ranges are taken, whatever is behind them; by induction on the ranges. -/
theorem takeFollowing_of_fits {ranges : List ByteRange} {tail : Bytes} (fits : Fits ranges tail)
    (rest : Bytes) : takeFollowing ranges (tail ++ rest) = (tail, [], rest) := by
  induction fits with
  | nil => cases rest <;> rfl
  | cons inside _ ih => rw [List.cons_append, takeFollowing, if_pos inside, ih]

/-- A character at the front is the piece there. -/
theorem front_char {c : Char} {lead : UInt8} {bytes rest : Bytes}
    (same : lead :: bytes = String.utf8EncodeChar c ++ rest)
    : front lead bytes = (.char c, rest) := by
  obtain ⟨first, tail, encoded⟩ := exists_encode_eq_cons c
  rw [encoded, List.cons_append] at same
  obtain ⟨rfl, rfl⟩ := List.cons.inj same
  obtain ⟨ranges, led, fits⟩ := (isForm_of_encode encoded).following
  simp only [front, led, takeFollowing_of_fits fits, assemble_eq encoded]

/-- Bytes begin with one character only. -/
theorem char_unique {c d : Char} {rest more : Bytes}
    (same : String.utf8EncodeChar c ++ rest = String.utf8EncodeChar d ++ more)
    : c = d ∧ rest = more := by
  obtain ⟨lead, tail, encoded⟩ := exists_encode_eq_cons c
  have first : front lead (tail ++ rest) = (.char c, rest) :=
    front_char (by rw [encoded, List.cons_append])
  have second : front lead (tail ++ rest) = (.char d, more) :=
    front_char (by rw [← same, encoded, List.cons_append])
  simpa using first.symm.trans second

/-- Where a byte misses the range that it should lie in, no beginning of a character goes on. -/
theorem length_le_of_begins {lead : UInt8} {range : ByteRange} {met left : List ByteRange}
    {taken rest longer : Bytes} (led : following lead = some (met ++ range :: left))
    (fits : Fits met taken) (misses : ∀ b ∈ rest.head?, range.contains b = false)
    (inside : longer <+: lead :: (taken ++ rest)) (begins : Begins longer)
    : longer.length ≤ taken.length + 1 := by
  rcases List.prefix_cons_iff.mp inside with rfl | ⟨more, rfl, further⟩
  · exact Nat.zero_le _
  rw [List.length_cons, Nat.add_le_add_iff_right]
  by_contra long
  obtain ⟨extra, rfl⟩ : taken <+: more :=
    List.prefix_of_prefix_length_le (List.prefix_append taken rest) further (by omega)
  obtain ⟨b, extra, rfl⟩ : ∃ b others, extra = b :: others :=
    List.exists_cons_of_ne_nil (by rintro rfl; simp at long)
  obtain ⟨inner, outer, known, alsoFits⟩ := begins_cons_iff.mp begins
  have same : met ++ range :: left = inner ++ outer := Option.some.inj (led.symm.trans known)
  have longer : met.length < inner.length := by
    rw [alsoFits.length_eq, fits.length_eq, List.length_append, List.length_cons]
    omega
  -- The byte behind those that are taken lies in the range that it misses.
  obtain ⟨reached, rfl⟩ : met <+: inner :=
    List.prefix_of_prefix_length_le ⟨_, rfl⟩ ⟨outer, same.symm⟩ (Nat.le_of_lt longer)
  obtain ⟨first, reached, rfl⟩ : ∃ first others, reached = first :: others :=
    List.exists_cons_of_ne_nil (by rintro rfl; simp at longer)
  rw [List.append_assoc, List.append_cancel_left_eq, List.cons_append] at same
  obtain ⟨rfl, _⟩ := List.cons.inj same
  have behind := List.forall₂_drop_append _ _ _ alsoFits
  rw [← fits.length_eq, List.drop_left] at behind
  obtain ⟨rest, rfl⟩ := (List.prefix_append_right_inj taken).mp further
  have missed := misses b rfl
  rw [(List.forall₂_cons.mp behind).1] at missed
  cases missed

/-- Bytes that meet some ranges behind their leading byte, but not the next one, are ill-formed. -/
theorem illFormed_of_unmet {lead : UInt8} {range : ByteRange} {met left : List ByteRange}
    {taken rest : Bytes} (led : following lead = some (met ++ range :: left))
    (fits : Fits met taken) (misses : ∀ b ∈ rest.head?, range.contains b = false)
    : IllFormed (lead :: taken) rest where
  nonempty := List.cons_ne_nil lead taken
  charless := by
    rintro ⟨c, begins⟩
    have short := length_le_of_begins led fits misses begins ⟨c, List.prefix_rfl⟩
    obtain ⟨first, tail, encoded⟩ := exists_encode_eq_cons c
    rw [encoded] at begins short
    obtain ⟨rfl, _⟩ := List.cons_prefix_cons.mp begins
    have whole := (fits_of_encode encoded led).length_eq
    have part := fits.length_eq
    simp only [List.length_append, List.length_cons] at whole short
    omega
  longest _ inside begins := length_le_of_begins led fits misses inside begins
  begins_or_single := .inl (begins_cons_iff.mpr ⟨met, range :: left, led, fits⟩)

/-- A byte that leads no character is ill-formed on its own. -/
theorem illFormed_of_leads_none {lead : UInt8} (rest : Bytes) (led : following lead = none)
    : IllFormed [lead] rest ∧ ¬ Begins ([lead] ++ rest) := by
  have beginless {more : Bytes} : ¬ Begins (lead :: more) := by
    intro begins
    obtain ⟨met, left, known, _⟩ := begins_cons_iff.mp begins
    cases led.symm.trans known
  refine ⟨⟨List.cons_ne_nil lead [], ?_, ?_, .inr rfl⟩, beginless⟩
  · rintro ⟨c, begins⟩
    obtain ⟨first, tail, encoded⟩ := exists_encode_eq_cons c
    rw [encoded] at begins
    obtain ⟨rfl, _⟩ := List.cons_prefix_cons.mp begins
    exact beginless ⟨c, by rw [encoded]⟩
  · intro longer inside begins
    rcases List.prefix_cons_iff.mp inside with rfl | ⟨more, rfl, _⟩
    · exact Nat.zero_le _
    · exact absurd begins beginless

theorem front_isFront (lead : UInt8) (bytes : Bytes)
    : IsFront (lead :: bytes) (front lead bytes).1 (front lead bytes).2 := by
  unfold front
  cases led : following lead with
  | none =>
      obtain ⟨ill, broken⟩ := illFormed_of_leads_none bytes led
      exact .invalid ill broken
  | some ranges =>
      rcases takes : takeFollowing ranges bytes with ⟨taken, left, rest⟩
      obtain ⟨met, rfl, rfl, fits, misses⟩ := takeFollowing_met takes
      simp only [takes]
      cases left with
      | nil =>
          rw [List.append_nil] at led
          have encoded := (isForm_of_following led fits).encode_assemble
          rw [← List.cons_append, ← encoded]
          exact .char _ rest
      | cons range left =>
          have misses : ∀ b ∈ rest.head?, range.contains b = false := misses range rfl
          have ill := illFormed_of_unmet led fits misses
          have begins := begins_cons_iff.mpr ⟨met, range :: left, led, fits⟩
          cases rest with
          | nil =>
              rw [List.append_nil]
              exact .cut ill begins
          | cons b rest =>
              refine .invalid ill fun all => ?_
              have short := ill.longest _ List.prefix_rfl all
              simp only [List.length_append, List.length_cons] at short
              omega

-----------------------------------------------------------------------------------------
-- Texts
-----------------------------------------------------------------------------------------

/-- The bytes are those of a text. -/
def IsText (bytes : Bytes) : Prop :=
  ∃ text, bytes = encode text

theorem encode_ofList (cs : List Char)
    : encode (String.ofList cs) = cs.flatMap String.utf8EncodeChar := by
  rw [encode, String.toList_ofList]

/-- A text at the front is read character by character; by induction on the characters. -/
theorem pieces_append (cs : List Char) (rest : Bytes)
    : pieces (cs.flatMap String.utf8EncodeChar ++ rest) = cs.map .char ++ pieces rest := by
  induction cs with
  | nil => rfl
  | cons c cs ih =>
      obtain ⟨lead, tail, encoded⟩ := exists_encode_eq_cons c
      have read : front lead (tail ++ (cs.flatMap String.utf8EncodeChar ++ rest))
          = (.char c, cs.flatMap String.utf8EncodeChar ++ rest) :=
        front_char (by rw [encoded, List.cons_append])
      rw [List.flatMap_cons, encoded, List.append_assoc, List.cons_append, pieces, read, ih]
      rfl

/-- Every sequence of bytes is a text and what follows it, which does not begin with a character;
by induction on the pieces.
-/
theorem exists_text_at_front (bytes : Bytes)
    : ∃ (cs : List Char) (rest : Bytes),
        bytes = cs.flatMap String.utf8EncodeChar ++ rest ∧ ¬ StartsWithChar rest := by
  induction bytes using pieces.induct with
  | case1 => exact ⟨[], [], rfl, not_startsWithChar_nil⟩
  | case2 lead bytes ih =>
      by_cases starts : StartsWithChar (lead :: bytes)
      case neg => exact ⟨[], lead :: bytes, rfl, starts⟩
      obtain ⟨c, rest, same⟩ := starts
      rw [front_char same.symm] at ih
      obtain ⟨cs, last, rfl, charless⟩ := ih
      exact ⟨c :: cs, last, by rw [← same, List.flatMap_cons, List.append_assoc], charless⟩

/-- The text at the front is the longest one: a longer text would go on with a character. -/
theorem length_le_of_text {cs : List Char} {rest : Bytes} (text : String)
    (charless : ¬ StartsWithChar rest)
    (begins : encode text <+: cs.flatMap String.utf8EncodeChar ++ rest)
    : (encode text).length ≤ (cs.flatMap String.utf8EncodeChar).length := by
  by_contra longer
  obtain ⟨more, grown⟩ : cs <+: text.toList :=
    prefix_of_flatMap_prefix (List.prefix_of_prefix_length_le (List.prefix_append _ rest) begins
      (by rw [encode] at longer; omega))
  rw [encode, ← grown, List.flatMap_append] at longer begins
  cases more with
  | nil => simp at longer
  | cons c more =>
      have further := (List.prefix_append_right_inj _).mp begins
      rw [List.flatMap_cons] at further
      exact charless ⟨c, (List.prefix_append _ _).trans further⟩

-----------------------------------------------------------------------------------------
-- Decoding
-----------------------------------------------------------------------------------------

/-- Characters in front of pieces come out in front of what the pieces come to, and move their
index; by induction on the characters.
-/
theorem ofPieces_append (index : Nat) (cs : List Char) (more : List Piece)
    : ofPieces index (cs.map .char ++ more)
      = (ofPieces (index + (cs.flatMap String.utf8EncodeChar).length) more).map (cs ++ ·) := by
  induction cs generalizing index with
  | nil =>
      rw [List.map_nil, List.nil_append, List.flatMap_nil, List.length_nil, Nat.add_zero]
      cases ofPieces index more <;> rfl
  | cons c cs ih =>
      rw [List.map_cons, List.cons_append, ofPieces, ih, List.flatMap_cons, List.length_append,
        String.length_utf8EncodeChar, Nat.add_assoc]
      cases ofPieces (index + (c.utf8Size + (cs.flatMap String.utf8EncodeChar).length)) more <;> rfl

theorem decode_encode (text : String) : decode (encode text) = .ok text := by
  have read := pieces_append text.toList []
  rw [List.append_nil, ← encode] at read
  rw [decode, read, ofPieces_append, pieces, ofPieces]
  simp only [Except.map, List.append_nil, String.ofList_toList]

/-- Bytes that do not begin with a character are refused at once, by cases on their front. -/
theorem ofPieces_charless {rest : Bytes} (some : rest ≠ []) (charless : ¬ StartsWithChar rest)
    (index : Nat)
    : ∃ fault,
        ofPieces index (pieces rest) = .error fault
        ∧ fault.index = index
        ∧ (fault.length = none ↔ Begins rest)
        ∧ ∀ length, fault.length = .some length
          → IllFormed (rest.take length) (rest.drop length) := by
  obtain ⟨lead, more, rfl⟩ := List.exists_cons_of_ne_nil some
  have found := front_isFront lead more
  rw [pieces]
  generalize front lead more = read at found ⊢
  obtain ⟨piece, behind⟩ := read
  dsimp only at found ⊢
  generalize lead :: more = bytes at *
  cases found with
  | char c => exact absurd ⟨c, List.prefix_append _ _⟩ charless
  | @invalid piece _ ill broken =>
      refine ⟨⟨index, .some piece.length⟩, rfl, rfl, by simpa using broken, ?_⟩
      rintro length ⟨⟩
      rwa [List.take_left, List.drop_left]
  | cut ill begins => exact ⟨⟨index, none⟩, rfl, rfl, by simpa using begins, by simp⟩

/-- The bytes are the beginning of a character and not all of it. -/
def IsCutOff (bytes : Bytes) : Prop :=
  ∃ c, bytes <+: String.utf8EncodeChar c ∧ bytes ≠ String.utf8EncodeChar c

/-- Where bytes stop being a text: behind the longest text at their front, with what is ill-formed
there, unless the end cuts a character off.
-/
structure Marks (bytes : Bytes) (fault : Fault) : Prop where
  index : IsGreatest {n | n ≤ bytes.length ∧ IsText (bytes.take n)} fault.index
  cut_iff : fault.length = none ↔ IsCutOff (bytes.drop fault.index)
  illFormed : ∀ length, fault.length = some length
    → IllFormed ((bytes.drop fault.index).take length)
        ((bytes.drop fault.index).drop length)

/-- Bytes that are no text are refused where they stop being one. -/
theorem exists_marks_of_not_isText {bytes : Bytes} (textless : ¬ IsText bytes)
    : ∃ fault, decode bytes = .error fault ∧ Marks bytes fault := by
  obtain ⟨cs, rest, rfl, charless⟩ := exists_text_at_front bytes
  have some : rest ≠ [] := by
    rintro rfl
    exact textless ⟨String.ofList cs, by rw [encode_ofList, List.append_nil]⟩
  obtain ⟨fault, refused, index, cut, ill⟩ :=
    ofPieces_charless some charless (0 + (cs.flatMap String.utf8EncodeChar).length)
  refine ⟨fault, ?_, ?_, ?_, ?_⟩
  · rw [decode, pieces_append, ofPieces_append, refused]
    rfl
  all_goals rw [Nat.zero_add] at index
  · rw [index]
    refine ⟨⟨by simp, String.ofList cs, by rw [List.take_left, encode_ofList]⟩, ?_⟩
    rintro n ⟨within, text, same⟩
    have longest := length_le_of_text text charless (same ▸ List.take_prefix n _)
    rwa [← same, List.length_take_of_le within] at longest
  · rw [cut, index, List.drop_left]
    constructor
    · rintro ⟨c, begins⟩
      exact ⟨c, begins, fun whole => charless ⟨c, by rw [whole]⟩⟩
    · rintro ⟨c, begins, _⟩
      exact ⟨c, begins⟩
  · rw [index, List.drop_left]
    exact ill

theorem Marks.message_of_cut {bytes : Bytes} {fault : Fault} (marks : Marks bytes fault)
    (cut : IsCutOff (bytes.drop fault.index))
    : fault.message = "incomplete utf-8 byte sequence from index " ++ toString fault.index := by
  rw [Fault.message, marks.cut_iff.mpr cut]
  rfl

theorem Marks.message_of_not_cut {bytes : Bytes} {fault : Fault} (marks : Marks bytes fault)
    (whole : ¬ IsCutOff (bytes.drop fault.index))
    : ∃ length,
        fault.message = "invalid utf-8 sequence of " ++ toString length ++ " bytes from index "
          ++ toString fault.index
        ∧ IllFormed ((bytes.drop fault.index).take length)
            ((bytes.drop fault.index).drop length) := by
  cases known : fault.length with
  | none => exact absurd (marks.cut_iff.mp known) whole
  | some length =>
      refine ⟨length, ?_, marks.illFormed length known⟩
      rw [Fault.message, known]
      rfl

theorem decode_eq_ok_iff {bytes : Bytes} {text : String}
    : decode bytes = .ok text ↔ bytes = encode text := by
  constructor
  · intro read
    by_cases isText : IsText bytes
    · obtain ⟨other, rfl⟩ := isText
      rw [decode_encode] at read
      rw [Except.ok.inj read]
    · obtain ⟨fault, refused, _⟩ := exists_marks_of_not_isText isText
      cases read.symm.trans refused
  · rintro rfl
    exact decode_encode text

/-- Bytes are no text exactly if there is a flaw behind some text. -/
theorem not_isText_iff {bytes : Bytes}
    : ¬ IsText bytes ↔ ∃ text rest, bytes = encode text ++ rest ∧ Flaw rest := by
  constructor
  · intro textless
    obtain ⟨cs, rest, rfl, charless⟩ := exists_text_at_front bytes
    refine ⟨String.ofList cs, rest, by rw [encode_ofList], ?_⟩
    refine flaw_of_not_startsWithChar ?_ charless
    rintro rfl
    exact textless ⟨String.ofList cs, by rw [encode_ofList, List.append_nil]⟩
  · rintro ⟨text, rest, rfl, flaw⟩ ⟨other, same⟩
    have charless := flaw.not_startsWithChar
    have longest := length_le_of_text other charless
      ⟨[], by rw [List.append_nil, ← same]; rfl⟩
    rw [← same, ← encode, List.length_append] at longest
    obtain rfl : rest = [] := List.length_eq_zero_iff.mp (by omega)
    cases flaw

-----------------------------------------------------------------------------------------
-- Repairing
-----------------------------------------------------------------------------------------

/-- The bytes with every ill-formed piece replaced by one replacement character. -/
inductive Repaired : Bytes → List Char → Prop
  | nil : Repaired [] []
  | char (c : Char) {rest : Bytes} {cs : List Char} (more : Repaired rest cs)
    : Repaired (String.utf8EncodeChar c ++ rest) (c :: cs)
  | replaced {piece rest : Bytes} {cs : List Char} (ill : IllFormed piece rest)
    (more : Repaired rest cs) : Repaired (piece ++ rest) ('\uFFFD' :: cs)

/-- Reading without failing repairs the bytes, by induction on the pieces. -/
theorem repaired_decodeLossy (bytes : Bytes) : Repaired bytes (decodeLossy bytes).toList := by
  rw [decodeLossy, String.toList_ofList]
  induction bytes using pieces.induct with
  | case1 =>
      rw [pieces]
      exact .nil
  | case2 lead bytes ih =>
      have found := front_isFront lead bytes
      rw [pieces]
      generalize front lead bytes = read at found ih ⊢
      obtain ⟨piece, behind⟩ := read
      dsimp only at found ih ⊢
      generalize lead :: bytes = all at found ⊢
      cases found with
      | char c => exact .char c ih
      | invalid ill => exact .replaced ill ih
      | cut ill =>
          rw [← List.append_nil all]
          exact .replaced ill ih

/-- There is only one ill-formed piece at the front of bytes. -/
theorem IllFormed.unique {piece rest other more : Bytes} (ill : IllFormed piece rest)
    (alsoIll : IllFormed other more) (same : piece ++ rest = other ++ more)
    : piece = other ∧ rest = more := by
  have atMost {piece rest other more : Bytes} (ill : IllFormed piece rest)
      (alsoIll : IllFormed other more) (same : piece ++ rest = other ++ more)
      : piece.length ≤ other.length := by
    rcases ill.begins_or_single with begins | single
    · exact alsoIll.longest piece (same ▸ List.prefix_append piece rest) begins
    · rw [single]
      exact List.length_pos_iff.mpr alsoIll.nonempty
  exact List.append_inj same
    (Nat.le_antisymm (atMost ill alsoIll same) (atMost alsoIll ill same.symm))

/-- There is only one way to repair bytes, by induction on it. -/
theorem Repaired.unique {bytes : Bytes} {cs ds : List Char} (repaired : Repaired bytes cs)
    (alsoRepaired : Repaired bytes ds) : cs = ds := by
  induction repaired generalizing ds with
  | nil =>
      generalize empty : ([] : Bytes) = bytes at alsoRepaired
      cases alsoRepaired with
      | nil => rfl
      | char c => exact absurd (List.append_eq_nil_iff.mp empty.symm).1 String.utf8EncodeChar_ne_nil
      | replaced ill => exact absurd (List.append_eq_nil_iff.mp empty.symm).1 ill.nonempty
  | @char c rest cs more ih =>
      generalize same : String.utf8EncodeChar c ++ rest = bytes at alsoRepaired
      cases alsoRepaired with
      | nil => exact absurd (List.append_eq_nil_iff.mp same).1 String.utf8EncodeChar_ne_nil
      | char d others =>
          obtain ⟨rfl, rfl⟩ := char_unique same
          rw [ih others]
      | replaced ill => exact absurd ⟨c, same ▸ List.prefix_append _ _⟩ ill.charless
  | @replaced piece rest cs ill more ih =>
      generalize same : piece ++ rest = bytes at alsoRepaired
      cases alsoRepaired with
      | nil => exact absurd (List.append_eq_nil_iff.mp same).1 ill.nonempty
      | char c => exact absurd ⟨c, same ▸ List.prefix_append _ _⟩ ill.charless
      | replaced alsoIll others =>
          obtain ⟨rfl, rfl⟩ := ill.unique alsoIll same
          rw [ih others]

theorem repaired_iff {bytes : Bytes} {cs : List Char}
    : Repaired bytes cs ↔ cs = (decodeLossy bytes).toList := by
  constructor
  · intro repaired
    exact repaired.unique (repaired_decodeLossy bytes)
  · rintro rfl
    exact repaired_decodeLossy bytes

end DocPipeline.Text.Utf8
