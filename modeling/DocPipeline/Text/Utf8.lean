/-! Text as bytes. A byte sequence is cut into characters, maximal ill-formed pieces, and at most
one character that the end cuts off; reading, repairing and reporting all look at these pieces.
-/

namespace DocPipeline

/-- A sequence of bytes, such as the content of a file or the body of an answer. -/
abbrev Bytes := List UInt8

namespace Text.Utf8

/-- The bytes that may stand at one place of a character. -/
structure ByteRange where
  low : UInt8
  high : UInt8

/-- The byte lies in the range. -/
def ByteRange.contains (range : ByteRange) (b : UInt8) : Bool :=
  range.low ≤ b && b ≤ range.high

/-- Any continuation byte. -/
def continuation : ByteRange := ⟨0x80, 0xBF⟩

/-- What must follow a leading byte; none for a byte that leads no character. The second byte
is narrowed so that no overlong form, surrogate or value past the last character gets through.
-/
def following (lead : UInt8) : Option (List ByteRange) :=
  if lead < 0x80 then some []
  else if 0xC2 ≤ lead ∧ lead ≤ 0xDF then some [continuation]
  else if lead = 0xE0 then some [⟨0xA0, 0xBF⟩, continuation]
  else if lead = 0xED then some [⟨0x80, 0x9F⟩, continuation]
  else if 0xE1 ≤ lead ∧ lead ≤ 0xEF then some [continuation, continuation]
  else if lead = 0xF0 then some [⟨0x90, 0xBF⟩, continuation, continuation]
  else if 0xF1 ≤ lead ∧ lead ≤ 0xF3 then some [continuation, continuation, continuation]
  else if lead = 0xF4 then some [⟨0x80, 0x8F⟩, continuation, continuation]
  else none

/-- The bytes taken from the front as long as they fit the ranges, the ranges left over, and
the rest.
-/
def takeFollowing : List ByteRange → Bytes → Bytes × List ByteRange × Bytes
  | [], bytes => ([], [], bytes)
  | range :: ranges, [] => ([], range :: ranges, [])
  | range :: ranges, b :: bytes =>
    if range.contains b then
      let (taken, left, rest) := takeFollowing ranges bytes
      (b :: taken, left, rest)
    else ([], range :: ranges, b :: bytes)

/-- Taking bytes never lengthens what is left. -/
theorem length_takeFollowing (ranges : List ByteRange) (bytes : Bytes)
    : (takeFollowing ranges bytes).2.2.length ≤ bytes.length := by
  induction ranges generalizing bytes with
  | nil => simp [takeFollowing]
  | cons range ranges ih =>
      cases bytes with
      | nil => simp [takeFollowing]
      | cons b bytes =>
          simp only [takeFollowing]
          split
          · exact Nat.le_succ_of_le (ih bytes)
          · exact Nat.le_refl _

/-- The bits of a leading byte that belong to the character, by the number of bytes after it. -/
def leadBits (lead : UInt8) (following : Nat) : Nat :=
  match following with
  | 0 => lead.toNat
  | 1 => lead.toNat % 32
  | 2 => lead.toNat % 16
  | _ => lead.toNat % 8

/-- The character that a leading byte and its continuation bytes stand for. -/
def assemble (lead : UInt8) (taken : Bytes) : Char :=
  Char.ofNat (taken.foldl (fun n b => n * 64 + b.toNat % 64) (leadBits lead taken.length))

/-- A piece of a byte sequence. -/
inductive Piece where
  /-- A character in its one encoding. -/
  | char (c : Char)
  /-- Bytes that begin no character together with what follows them. -/
  | invalid (bytes : Bytes)
  /-- The beginning of a character that the end of the sequence cuts off. -/
  | cut (bytes : Bytes)
deriving DecidableEq, Repr

/-- The piece at the front of a sequence that is not empty, and the rest. -/
def front (lead : UInt8) (bytes : Bytes) : Piece × Bytes :=
  match following lead with
  | none => (.invalid [lead], bytes)
  | some ranges =>
    match takeFollowing ranges bytes with
    | (taken, [], rest) => (.char (assemble lead taken), rest)
    | (taken, _ :: _, []) => (.cut (lead :: taken), [])
    | (taken, _ :: _, rest) => (.invalid (lead :: taken), rest)

/-- What follows the front piece is no longer than what follows its leading byte. -/
theorem length_front (lead : UInt8) (bytes : Bytes)
    : (front lead bytes).2.length ≤ bytes.length := by
  unfold front
  split
  · exact Nat.le_refl _
  · next ranges _ =>
      have h := length_takeFollowing ranges bytes
      split <;> simp_all

/-- The pieces of a byte sequence, in order. -/
def pieces : Bytes → List Piece
  | [] => []
  | lead :: bytes => (front lead bytes).1 :: pieces (front lead bytes).2
termination_by bytes => bytes.length
decreasing_by exact Nat.lt_succ_of_le (length_front lead bytes)

/-- Why a byte sequence is no text: how many bytes of it are good text, and the length of the
ill-formed piece after them, or none when the end cuts a character off.
-/
structure Fault where
  index : Nat
  length : Option Nat
deriving DecidableEq, Repr

/-- The text in which bytes are reported to be no text. -/
def Fault.message (fault : Fault) : String :=
  match fault.length with
  | some n => s!"invalid utf-8 sequence of {n} bytes from index {fault.index}"
  | none => s!"incomplete utf-8 byte sequence from index {fault.index}"

/-- The characters of the pieces, or the first piece that is none, at its index. -/
def ofPieces (index : Nat) : List Piece → Except Fault (List Char)
  | [] => .ok []
  | .char c :: rest => (ofPieces (index + c.utf8Size) rest).map (c :: ·)
  | .invalid bytes :: _ => .error ⟨index, some bytes.length⟩
  | .cut _ :: _ => .error ⟨index, none⟩

/-- The text that a byte sequence encodes. -/
def decode (bytes : Bytes) : Except Fault String :=
  (ofPieces 0 (pieces bytes)).map String.ofList

/-- The text of a byte sequence with each ill-formed piece replaced by one replacement
character.
-/
def decodeLossy (bytes : Bytes) : String :=
  String.ofList ((pieces bytes).map fun
    | .char c => c
    | _ => '\uFFFD')

/-- The bytes of a text. -/
def encode (s : String) : Bytes :=
  s.toList.flatMap String.utf8EncodeChar

end Text.Utf8
end DocPipeline
