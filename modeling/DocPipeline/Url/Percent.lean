import DocPipeline.Text.Utf8

/-! Percent escapes: a byte that may not stand for itself is written by its number. -/

namespace DocPipeline.Url

/-- A hexadecimal digit, capital where it is a letter. -/
def hexDigit (n : Nat) : Char :=
  if n < 10 then Char.ofNat (48 + n) else Char.ofNat (55 + n)

/-- A byte by its number. -/
def escapeByte (b : UInt8) : List Char :=
  ['%', hexDigit (b.toNat / 16), hexDigit (b.toNat % 16)]

/-- A character, or the escapes of its bytes if it is reserved. -/
def encodeChar (reserved : Char → Bool) (c : Char) : List Char :=
  if reserved c then (String.utf8EncodeChar c).flatMap escapeByte else [c]

/-- A text with its reserved characters escaped. -/
def encode (reserved : Char → Bool) (cs : List Char) : List Char :=
  cs.flatMap (encodeChar reserved)

/-- The value of a hexadecimal digit. -/
def hexValue? (c : Char) : Option Nat :=
  if c.isDigit then some (c.toNat - 48)
  else if 'a' ≤ c ∧ c ≤ 'f' then some (c.toNat - 87)
  else if 'A' ≤ c ∧ c ≤ 'F' then some (c.toNat - 55)
  else none

/-- The bytes of a text, with each escape turned into its byte; a percent sign that begins no escape
stands for itself.
-/
def decode : List Char → Bytes
  | '%' :: a :: b :: rest =>
    match hexValue? a, hexValue? b with
    | some x, some y => UInt8.ofNat (16 * x + y) :: decode rest
    | _, _ => String.utf8EncodeChar '%' ++ decode (a :: b :: rest)
  | c :: rest => String.utf8EncodeChar c ++ decode rest
  | [] => []

/-- A control, or a character beyond the ASCII ones; reserved everywhere. -/
def isControl (c : Char) : Bool :=
  c.toNat < 0x20 || 0x7E < c.toNat

/-- Reserved in a fragment. -/
def inFragment (c : Char) : Bool :=
  isControl c || " \"<>\x60".toList.contains c

/-- Reserved in a query. -/
def inQuery (c : Char) : Bool :=
  isControl c || " \"#<>".toList.contains c

/-- Reserved in the query of a web address. -/
def inWebQuery (c : Char) : Bool :=
  inQuery c || c == '\''

/-- Reserved in a path. -/
def inPath (c : Char) : Bool :=
  inFragment c || "#?\x7b\x7d".toList.contains c

/-- Reserved in user information. -/
def inUserInfo (c : Char) : Bool :=
  inPath c || "/:;=@[\\]^|".toList.contains c

/-- Reserved in a path segment that stands for a text of its own. -/
def inSegment (c : Char) : Bool :=
  inPath c || c == '/' || c == '%'

/-- Reserved in such a segment of a web address, where a backslash counts as a slash. -/
def inWebSegment (c : Char) : Bool :=
  inSegment c || c == '\\'

end DocPipeline.Url
