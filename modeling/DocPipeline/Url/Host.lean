import DocPipeline.Number.Power
import DocPipeline.Text.EscapedTable
import DocPipeline.Text.Lowercase
import DocPipeline.Text.Split
import DocPipeline.Url.Percent
import DocPipeline.Url.Punycode

/-! Hosts: names, which are brought to small ASCII letters, and numbers of four or of sixteen
bytes in their various spellings.

For names in ASCII letters this is exact. For other names it is an approximation: characters are
not composed or replaced by compatible ones beyond `foldChar`, and it is not checked that a part
begins with no combining mark and mixes no directions of writing. So some names are taken that
should be refused, and some are looked up under another spelling.
-/

namespace DocPipeline.Url

/-- Why a text is no address. -/
inductive Fault where
  | relative | emptyHost | badNumber | badName | badLongNumber | badShortNumber
  | badHostCharacter
deriving DecidableEq, Repr

/-- The text in which a fault is reported. -/
def Fault.message : Fault → String
  | relative => "relative URL without a base"
  | emptyHost => "empty host"
  | badNumber => "invalid port number"
  | badName => "invalid international domain name"
  | badLongNumber => "invalid IPv6 address"
  | badShortNumber => "invalid IPv4 address"
  | badHostCharacter => "invalid domain character"

namespace Host

/-- The number that digits of a base stand for, if all of them are digits of that base. -/
def ofBase? (base : Nat) (cs : List Char) : Option Nat :=
  cs.foldlM (fun n c => ((hexValue? c).filter (· < base)).map (n * base + ·)) 0

/-- One part of a number of four bytes, in hexadecimal, octal or decimal digits. -/
def part? : List Char → Option Nat
  | [] => none
  | '0' :: 'x' :: rest => ofBase? 16 rest
  | '0' :: 'X' :: rest => ofBase? 16 rest
  | '0' :: d :: rest => ofBase? 8 (d :: rest)
  | cs => ofBase? 10 cs

/-- The parts of a name between points, without an empty one at its end. -/
def nameParts (name : List Char) : List (List Char) :=
  let parts := Text.splitAt '.' name
  if parts.getLast? = some [] then parts.dropLast else parts

/-- A name whose last part is a number is taken for a number as a whole. -/
def endsInNumber (name : List Char) : Bool :=
  match (nameParts name).getLast? with
  | some last => (!last.isEmpty && last.all Char.isDigit) || (part? last).isSome
  | none => false

/-- The number that parts stand for: one byte each, and what is left of four bytes for the last
part.
-/
def shortNumber? (parts : List Nat) : Option Nat :=
  match parts.getLast? with
  | none => none
  | some last =>
    let front := parts.dropLast
    if 3 < front.length || 256 ^ (4 - front.length) ≤ last || front.any (255 < ·) then none
    else some (front.foldr (fun byte n => byte * 256 ^ 3 + n / 256) 0 + last)

/-- The four bytes of a number, the highest first. -/
def fourBytes (n : Nat) : List Nat :=
  [n / 256 ^ 3 % 256, n / 256 ^ 2 % 256, n / 256 % 256, n % 256]

/-- A number of four bytes as it is written. -/
def shortText (n : Nat) : List Char :=
  List.intercalate ['.'] ((fourBytes n).map (Nat.toDigits 10))

/-- A host that is a number of four bytes. -/
def short (name : List Char) : Except Fault (List Char) :=
  match (nameParts name).mapM part? >>= shortNumber? with
  | some n => .ok (shortText n)
  | none => .error .badShortNumber

/-- A piece of a number of sixteen bytes: up to four hexadecimal digits. -/
def piece? (cs : List Char) : Option Nat :=
  if cs.isEmpty || 4 < cs.length then none else ofBase? 16 cs

/-- A byte of the decimal end of a number of sixteen bytes, without leading zeros. -/
def byte? (cs : List Char) : Option Nat :=
  if cs.isEmpty || !cs.all Char.isDigit || (1 < cs.length && cs.head? = some '0') then none
  else (ofBase? 10 cs).filter (· < 256)

/-- The pieces between colons; the last part may be four bytes in decimal digits. -/
def pieces? : List (List Char) → Option (List Nat)
  | [] => some []
  | [last] =>
    if last.contains '.' then
      match (Text.splitAt '.' last).mapM byte? with
      | some [a, b, c, d] => some [a * 256 + b, c * 256 + d]
      | _ => none
    else (piece? last).map ([·])
  | part :: rest => do return (← piece? part) :: (← pieces? rest)

/-- The pieces of a side of a double colon, where nothing at all may stand. -/
def side? (cs : List Char) : Option (List Nat) :=
  if cs.isEmpty then some [] else pieces? (Text.splitAt ':' cs)

/-- What stands before and behind the first double colon. -/
def atDoubleColon : List Char → Option (List Char × List Char)
  | ':' :: ':' :: rest => some ([], rest)
  | c :: rest => (atDoubleColon rest).map fun (before, behind) => (c :: before, behind)
  | [] => none

/-- The eight pieces of a number of sixteen bytes. A double colon stands for one or more pieces
that are zero.
-/
def longPieces? (cs : List Char) : Option (List Nat) :=
  match atDoubleColon cs with
  | none => (pieces? (Text.splitAt ':' cs)).filter (·.length = 8)
  | some (before, behind) => do
    let front ← side? before
    let back ← side? behind
    if before.contains '.' || 7 < front.length + back.length then none
    else some (front ++ List.replicate (8 - front.length - back.length) 0 ++ back)

/-- The length of the run of zeros at the front. -/
def zerosAt (pieces : List Nat) : Nat :=
  (pieces.takeWhile (· = 0)).length

/-- The place and length of the first longest run of zeros. -/
def longestZeros (pieces : List Nat) : Nat × Nat :=
  (List.range pieces.length).foldl (fun best i =>
    let length := zerosAt (pieces.drop i)
    if best.2 < length then (i, length) else best) (0, 0)

/-- Pieces between colons. -/
def joined (pieces : List Nat) : List Char :=
  List.intercalate [':'] (pieces.map (Nat.toDigits 16))

/-- A number of sixteen bytes as it is written: the longest run of two or more zeros is a double
colon.
-/
def longText (pieces : List Nat) : List Char :=
  let (place, length) := longestZeros pieces
  if length < 2 then joined pieces
  else joined (pieces.take place) ++ [':', ':'] ++ joined (pieces.drop (place + length))

/-- A host in brackets is a number of sixteen bytes. -/
def bracketed (cs : List Char) : Except Fault (List Char) :=
  if cs.getLast? ≠ some ']' then .error .badLongNumber
  else
    match longPieces? cs.tail.dropLast with
    | some pieces => .ok ('[' :: longText pieces ++ [']'])
    | none => .error .badLongNumber

/-- A character that no name may hold. -/
def isForbidden (c : Char) : Bool :=
  c.toNat ≤ 0x20 || c.toNat = 0x7F || "#%/:<>?@[\\]^|".toList.contains c

/-- A character of a name as it is looked up: small, with the full stops of other scripts as points
and the wide ASCII letters as plain ones; marks without a picture are dropped. Other characters that
have a compatible or composed form stand for themselves.
-/
def foldChar (c : Char) : List Char :=
  let n := c.toNat
  if n = 0x3002 || n = 0xFF0E || n = 0xFF61 then ['.']
  else if n = 0xAD || n = 0x200B || n = 0x2060 || n = 0xFEFF then []
  else if 0xFF01 ≤ n && n ≤ 0xFF5E then Text.lowerChar (Char.ofNat (n - 0xFEE0))
  else Text.lowerChar c

/-- Blocks of letters with marks that belong to the letters before them. -/
def markedBlocks : List (Nat × Nat) :=
  [(0x300, 0x1DFF), (0x3099, 0x309A), (0xA66F, 0xABFF), (0x11000, 0x11FFF)]

/-- A character that a name in another script may hold, wherever it stands in the name. -/
def isNameChar (c : Char) : Bool :=
  c.toNat < 0x80 || Text.inRanges markedBlocks c
    || (!Text.inRanges Text.escapedRanges c && c ≠ '\uFFFD')

/-- One part of a name in ASCII letters. Its characters are judged one by one: neither a combining
mark in front nor letters of both directions are refused.
-/
def asciiLabel (label : List Char) : Option (List Char) :=
  if label.all (·.toNat < 0x80) then
    match label with
    | 'x' :: 'n' :: '-' :: '-' :: rest =>
      match Punycode.decode rest with
      | some plain =>
        if plain.any (0x80 ≤ ·.toNat) && plain.all isNameChar then some label else none
      | none => none
    | _ => some label
  else if label.all isNameChar then
    some ("xn--".toList ++ Punycode.encode label)
  else none

/-- A name in small ASCII letters, as far as `foldChar` and `asciiLabel` know its characters. -/
def ascii (name : List Char) : Option (List Char) := do
  let folded := name.flatMap foldChar
  if folded.any isForbidden then none
  let labels ← (Text.splitAt '.' folded).mapM asciiLabel
  return List.intercalate ['.'] labels

/-- The host of a server. -/
def server (cs : List Char) : Except Fault (List Char) :=
  if cs.head? = some '[' then bracketed cs
  else
    match Text.Utf8.decode (decode cs) with
    | .error _ => .error .badName
    | .ok name =>
      match ascii name.toList with
      | none => .error .badName
      | some name =>
        if name.isEmpty then .error .emptyHost
        else if endsInNumber name then short name
        else .ok name

/-- A character that no host may hold. -/
def isForbiddenAnywhere (c : Char) : Bool :=
  "\x00\t\n\r #/:<>?@[\\]^|".toList.contains c

/-- The host of an address that is not one of a server. -/
def other (cs : List Char) : Except Fault (List Char) :=
  if cs.head? = some '[' then bracketed cs
  else if cs.any isForbiddenAnywhere then .error .badHostCharacter
  else .ok (encode isControl cs)

end Host
end DocPipeline.Url
