import DocPipeline.Yaml.Token.Scalar

/-! Names at the front of a text: anchors and aliases, tags, and the directives that say what
tags mean.
-/

namespace DocPipeline.Yaml.Name

/-- What may stand behind the name of an anchor or alias. -/
def endsName : List Char → Bool
  | [] => true
  | c :: _ =>
    isSpacing c || isBreak c || c == '?' || c == ':' || c == ',' || c == ']' || c == '}'
      || c == '%' || c == '@' || c == '\x60'

/-- The name behind the mark of an anchor or alias. -/
def anchor (construct : Construct) (cursor : Cursor)
    : Except Fault (List Char × Cursor) :=
  let inner := cursor.skip 1
  let name := inner.taken isNameChar
  let behind := inner.skipWhile isNameChar
  if name.isEmpty || !endsName behind.rest then
    .error (behind.fault .nameExpected construct cursor.mark)
  else .ok (name, behind)

/-- A character of a tag; inside angle brackets there are three more of them. -/
def isTagChar (bracketed : Bool) (c : Char) : Bool :=
  isNameChar c || ";/?:@&=+$.%!~*'()".contains c
    || (bracketed && (c == ',' || c == '[' || c == ']'))

/-- The text of a tag in which each character may be given by the octets of its encoding. Of a
character in progress, `left` octets are missing.
-/
def unescape (left value : Nat) : List Char → Except Problem (List Char)
  | '%' :: a :: b :: rest =>
    match Scalar.hexDigit? a, Scalar.hexDigit? b with
    | some x, some y =>
      let octet := 16 * x + y
      if left = 0 then
        if octet < 0x80 then (unescape 0 0 rest).map (Char.ofNat octet :: ·)
        else if octet / 32 = 6 then unescape 1 (octet % 32) rest
        else if octet / 16 = 14 then unescape 2 (octet % 16) rest
        else if octet / 8 = 30 then unescape 3 (octet % 8) rest
        else .error .octetLeadBroken
      else if octet / 64 = 2 then
        let value := value * 64 + octet % 64
        if left = 1 then (unescape 0 0 rest).map (Char.ofNat value :: ·)
        else unescape (left - 1) value rest
      else .error .octetTailBroken
    | _, _ => .error .octetExpected
  | c :: rest =>
    if c == '%' || 0 < left then .error .octetExpected
    else (unescape 0 0 rest).map (c :: ·)
  | [] => if 0 < left then .error .octetExpected else .ok []

/-- The run of tag characters at the front. -/
def tagText (bracketed : Bool) (construct : Construct) (start : Mark) (cursor : Cursor)
    : Except Fault (List Char × Cursor) :=
  match unescape 0 0 (cursor.taken (isTagChar bracketed)) with
  | .ok text => .ok (text, cursor.skipWhile (isTagChar bracketed))
  | .error problem => .error (cursor.fault problem construct start)

/-- The handle at the front: a name between two exclamation marks, or what there is of it. -/
def handle (directive : Bool) (construct : Construct) (start : Mark) (cursor : Cursor)
    : Except Fault (List Char × Cursor) :=
  if cursor.rest.head? ≠ some '!' then
    .error (cursor.fault .tagMarkExpected construct start)
  else
    let inner := cursor.skip 1
    let name := inner.taken isNameChar
    let behind := inner.skipWhile isNameChar
    if behind.rest.head? = some '!' then .ok ('!' :: name ++ ['!'], behind.skip 1)
    else if directive && !name.isEmpty then
      .error (behind.fault .tagMarkExpected construct start)
    else .ok ('!' :: name, behind)

/-- The tag at the front, as a handle and what follows it. A tag in angle brackets has an empty
handle, and so has a lone exclamation mark.
-/
def tag (flow : Bool) (cursor : Cursor)
    : Except Fault ((List Char × List Char) × Cursor) := do
  let start := cursor.mark
  let (parts, behind) ← id <| do
    if (cursor.skip 1).rest.head? = some '<' then
      let (suffix, behind) ← tagText true .tag start (cursor.skip 2)
      if suffix.isEmpty then throw (behind.fault .tagUriExpected .tag start)
      if behind.rest.head? ≠ some '>' then
        throw (behind.fault .tagCloseExpected .tag start)
      pure (([], suffix), behind.skip 1)
    else
      let (front, behind) ← handle false .tag start cursor
      if 1 < front.length && front.getLast? = some '!' then
        let (suffix, behind) ← tagText false .tag start behind
        if suffix.isEmpty then throw (behind.fault .tagUriExpected .tag start)
        pure ((front, suffix), behind)
      else
        let (suffix, behind) ← tagText false .tag start behind
        let suffix := front.drop 1 ++ suffix
        if suffix.isEmpty then pure (([], ['!']), behind)
        else pure ((['!'], suffix), behind)
  if endsWord behind.rest || (flow && behind.rest.head? = some ',') then
    return (parts, behind)
  throw (behind.fault .spaceOrBreakExpected .tag start)

/-- A number of the version directive. -/
def versionNumber (start : Mark) (cursor : Cursor) : Except Fault (Nat × Cursor) :=
  let digits := cursor.taken Char.isDigit
  if digits.isEmpty then .error (cursor.fault .versionDigitsMissing .version start)
  else if 9 < digits.length then .error (cursor.fault .versionTooLong .version start)
  else .ok (Nat.ofDigitChars 10 digits 0, cursor.skipWhile Char.isDigit)

/-- The two numbers of the version directive. -/
def version (start : Mark) (cursor : Cursor) : Except Fault (Token.Kind × Cursor) := do
  let (major, behind) ← versionNumber start (cursor.skipWhile isSpacing)
  if behind.rest.head? ≠ some '.' then
    throw (behind.fault .versionPointMissing .version start)
  let (minor, behind) ← versionNumber start (behind.skip 1)
  return (.version major minor, behind)

/-- The handle and the expansion of a tag directive. -/
def tagDirective (start : Mark) (cursor : Cursor) : Except Fault (Token.Kind × Cursor) := do
  let (front, behind) ← handle true .tagDirective start (cursor.skipWhile isSpacing)
  if !behind.rest.head?.any isSpacing then
    throw (behind.fault .spaceExpected .tagDirective start)
  let (expansion, behind) ←
    tagText true .tagDirective start (behind.skipWhile isSpacing)
  if expansion.isEmpty then throw (behind.fault .tagUriExpected .tagDirective start)
  if !endsWord behind.rest then
    throw (behind.fault .spaceOrBreakExpected .tagDirective start)
  return (.tagDirective front expansion, behind)

/-- The directive at the front, to the end of its line. -/
def directive (cursor : Cursor) : Except Fault (Token.Kind × Cursor) := do
  let start := cursor.mark
  let inner := cursor.skip 1
  let name := inner.taken isNameChar
  let behind := inner.skipWhile isNameChar
  if name.isEmpty then throw (behind.fault .directiveNameMissing .directive start)
  if !endsWord behind.rest then
    throw (behind.fault .directiveNameBroken .directive start)
  let (kind, behind) ← id <| do
    if name = "YAML".toList then version start behind
    else if name = "TAG".toList then tagDirective start behind
    else throw (behind.fault .directiveUnknown .directive start)
  let behind := behind.skipComment
  if !behind.atLineEnd then
    throw (behind.fault .commentOrBreakExpected .directive start)
  return (kind, behind.skipBreak)

end DocPipeline.Yaml.Name
