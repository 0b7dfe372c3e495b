import DocPipeline.Yaml.Token.Basic

/-! Scalars at the front of a text: plain ones, quoted ones with their escapes, and blocks. Each
reader takes one character a step, so the rest it hands back is a tail of what it was given.
-/

namespace DocPipeline.Yaml.Scalar

/-- The white space between two words of a scalar. Spaces count until the first line break;
of several breaks the first one folds away.
-/
structure Gap where
  broken : Bool
  /-- The spaces before any break, read backwards. -/
  spaces : List Char
  /-- The first break. -/
  first : List Char
  /-- The other breaks, read backwards. -/
  more : List Char
deriving DecidableEq, Repr

namespace Gap

/-- No white space at all. -/
def none : Gap := ⟨false, [], [], []⟩

/-- The line goes on below without leaving anything behind. -/
def continued : Gap := ⟨true, [], [], []⟩

/-- There is no white space. -/
def isNone (gap : Gap) : Bool :=
  !gap.broken && gap.spaces.isEmpty

/-- With one more space or tab. -/
def addSpace (gap : Gap) (c : Char) : Gap :=
  if gap.broken then gap else { gap with spaces := c :: gap.spaces }

/-- With one more line break. -/
def addBreak (gap : Gap) (c : Char) : Gap :=
  if gap.broken then { gap with more := foldedBreak c :: gap.more }
  else ⟨true, [], [foldedBreak c], []⟩

/-- What the white space stands for. -/
def text (gap : Gap) : List Char :=
  if !gap.broken then gap.spaces.reverse
  else if gap.first = ['\n'] then
    if gap.more.isEmpty then [' '] else gap.more.reverse
  else gap.first ++ gap.more.reverse

/-- A text read backwards, followed by the white space. -/
def appendTo (gap : Gap) (text : List Char) : List Char :=
  gap.text.reverse ++ text

end Gap

/-- Inside brackets these characters end a plain scalar. -/
def isFlowMark (c : Char) : Bool :=
  c == ',' || c == '[' || c == ']' || c == '{' || c == '}'

/-- A colon inside brackets may not stand right before these characters. -/
def isFlowAfterColon : List Char → Bool
  | c :: _ => isFlowMark c || c == '?'
  | [] => false

/-- A plain scalar goes no further than this. -/
def endsPlain (flow : Bool) (c : Char) (rest : List Char) : Bool :=
  (c == ':' && endsWord rest) || (flow && isFlowMark c)

/-- After white space a plain scalar goes no further than this: a line less indented, a
separator of documents, or a comment.
-/
def endsPlainLine (flow : Bool) (margin : Nat) (mark : Mark) (c : Char) (rest : List Char)
    : Bool :=
  (!flow && mark.column < margin) || isSeparator mark (c :: rest) || c == '#'

/-- The rest of a plain scalar, after `text`, read backwards, and the white space `gap`. The
flag tells whether a line ended behind the scalar.
-/
def plainFrom (flow : Bool) (margin : Nat) (start : Mark) (text : List Char) (gap : Gap)
    : List Char → Mark → Except Fault (List Char × Bool × Cursor)
  | [], mark => .ok (text.reverse, gap.broken, ⟨[], mark⟩)
  | '\r' :: '\n' :: rest, mark =>
    plainFrom flow margin start text (gap.addBreak '\n') rest (mark.nextLine 2)
  | c :: rest, mark =>
    if isBreak c then
      plainFrom flow margin start text (gap.addBreak c) rest (mark.nextLine 1)
    else if isSpacing c then
      if gap.broken && mark.column < margin && c == '\t' then
        .error ⟨.tabAbusesIndentation, mark, some (.plainScalar, start)⟩
      else plainFrom flow margin start text (gap.addSpace c) rest (mark.advance 1)
    else if !gap.isNone && endsPlainLine flow margin mark c rest then
      .ok (text.reverse, gap.broken, ⟨c :: rest, mark⟩)
    else if flow && c == ':' && isFlowAfterColon rest then
      .error ⟨.colonUnexpected, mark, some (.plainScalar, start)⟩
    else if endsPlain flow c rest then
      .ok (text.reverse, gap.broken, ⟨c :: rest, mark⟩)
    else
      plainFrom flow margin start (c :: gap.appendTo text) .none rest (mark.advance 1)

/-- The plain scalar at the front. -/
def plain (flow : Bool) (margin : Nat) (cursor : Cursor)
    : Except Fault (List Char × Bool × Cursor) :=
  plainFrom flow margin cursor.mark [] .none cursor.rest cursor.mark

/-- The value of a hexadecimal digit. -/
def hexDigit? (c : Char) : Option Nat :=
  if c.isDigit then some (c.toNat - 48)
  else if 'a' ≤ c ∧ c ≤ 'f' then some (c.toNat - 87)
  else if 'A' ≤ c ∧ c ≤ 'F' then some (c.toNat - 55)
  else none

/-- The character of an escape of one letter. -/
def shortEscape? (c : Char) : Option Char :=
  match c with
  | '0' => some '\x00'
  | 'a' => some '\x07'
  | 'b' => some '\x08'
  | 't' => some '\t'
  | '\t' => some '\t'
  | 'n' => some '\n'
  | 'v' => some '\x0b'
  | 'f' => some '\x0c'
  | 'r' => some '\r'
  | 'e' => some '\x1b'
  | ' ' => some ' '
  | '"' => some '"'
  | '/' => some '/'
  | '\\' => some '\\'
  | 'N' => some '\u0085'
  | '_' => some '\u00a0'
  | 'L' => some '\u2028'
  | 'P' => some '\u2029'
  | _ => none

/-- How many digits follow the letter of an escape by number. -/
def digitCount? (c : Char) : Option Nat :=
  match c with
  | 'x' => some 2
  | 'u' => some 4
  | 'U' => some 8
  | _ => none

/-- The number is that of a character. -/
def isCharNumber (n : Nat) : Bool :=
  n < 0xD800 || (0xDFFF < n && n ≤ 0x10FFFF)

/-- Where a reader of quoted text stands: between characters, behind a backslash, or inside an
escape by number with so many digits to come.
-/
inductive Escape where
  | outside
  | opened
  | digits (left value : Nat)
deriving DecidableEq, Repr

/-- The rest of a scalar in double quotes. -/
def doubleFrom (start : Mark) (text : List Char) (gap : Gap)
    : Escape → List Char → Mark → Except Fault (List Char × Cursor)
  | .opened, [], mark => .error ⟨.escapeUnknown, mark, some (.quotedScalar, start)⟩
  | .digits _ _, [], mark => .error ⟨.digitsExpected, mark, some (.quotedScalar, start)⟩
  | .outside, [], mark => .error ⟨.streamEndInside, mark, some (.quotedScalar, start)⟩
  | .digits left value, c :: rest, mark =>
    match hexDigit? c with
    | none => .error ⟨.digitsExpected, mark, some (.quotedScalar, start)⟩
    | some digit =>
      let value := value * 16 + digit
      if 1 < left then
        doubleFrom start text gap (.digits (left - 1) value) rest (mark.advance 1)
      else if isCharNumber value then
        doubleFrom start (Char.ofNat value :: text) gap .outside rest (mark.advance 1)
      else .error ⟨.escapeNoCharacter, mark, some (.quotedScalar, start)⟩
  | .opened, '\r' :: '\n' :: rest, mark =>
    doubleFrom start text .continued .outside rest (mark.nextLine 2)
  | .opened, c :: rest, mark =>
    if isBreak c then doubleFrom start text .continued .outside rest (mark.nextLine 1)
    else
      match shortEscape? c, digitCount? c with
      | some d, _ => doubleFrom start (d :: text) gap .outside rest (mark.advance 1)
      | none, some count =>
        doubleFrom start text gap (.digits count 0) rest (mark.advance 1)
      | none, none => .error ⟨.escapeUnknown, mark, some (.quotedScalar, start)⟩
  | .outside, '\r' :: '\n' :: rest, mark =>
    doubleFrom start text (gap.addBreak '\n') .outside rest (mark.nextLine 2)
  | .outside, c :: rest, mark =>
    if isBreak c then
      doubleFrom start text (gap.addBreak c) .outside rest (mark.nextLine 1)
    else if isSpacing c then
      doubleFrom start text (gap.addSpace c) .outside rest (mark.advance 1)
    else if isSeparator mark (c :: rest) then
      .error ⟨.separatorInside, mark, some (.quotedScalar, start)⟩
    else if c == '"' then .ok ((gap.appendTo text).reverse, ⟨rest, mark.advance 1⟩)
    else if c == '\\' then
      doubleFrom start (gap.appendTo text) .none .opened rest (mark.advance 1)
    else
      doubleFrom start (c :: gap.appendTo text) .none .outside rest (mark.advance 1)

/-- The rest of a scalar in single quotes, where a quote is written twice. -/
def singleFrom (start : Mark) (text : List Char) (gap : Gap)
    : List Char → Mark → Except Fault (List Char × Cursor)
  | [], mark => .error ⟨.streamEndInside, mark, some (.quotedScalar, start)⟩
  | '\r' :: '\n' :: rest, mark =>
    singleFrom start text (gap.addBreak '\n') rest (mark.nextLine 2)
  | '\'' :: '\'' :: rest, mark =>
    singleFrom start ('\'' :: gap.appendTo text) .none rest (mark.advance 2)
  | c :: rest, mark =>
    if isBreak c then singleFrom start text (gap.addBreak c) rest (mark.nextLine 1)
    else if isSpacing c then singleFrom start text (gap.addSpace c) rest (mark.advance 1)
    else if isSeparator mark (c :: rest) then
      .error ⟨.separatorInside, mark, some (.quotedScalar, start)⟩
    else if c == '\'' then .ok ((gap.appendTo text).reverse, ⟨rest, mark.advance 1⟩)
    else singleFrom start (c :: gap.appendTo text) .none rest (mark.advance 1)

/-- The scalar in quotes at the front. -/
def quoted (single : Bool) (cursor : Cursor) : Except Fault (List Char × Cursor) :=
  let inner := cursor.skip 1
  if single then singleFrom cursor.mark [] .none inner.rest inner.mark
  else doubleFrom cursor.mark [] .none .outside inner.rest inner.mark

/-- What happens to the line breaks at the end of a block. -/
inductive Chomping where
  | strip | clip | keep
deriving DecidableEq, Repr

/-- The indicators behind the mark that opens a block. -/
structure Header where
  chomping : Chomping
  /-- The indentation that is asked for, or zero. -/
  increment : Nat
deriving DecidableEq, Repr

/-- What a chomping indicator asks for. -/
def chomping? (c : Char) : Option Chomping :=
  if c == '+' then some .keep else if c == '-' then some .strip else none

/-- The indicators at the front, in either order. -/
def header (cursor : Cursor) (start : Mark) : Except Fault (Header × Cursor) :=
  let zero (place : Cursor) : Except Fault (Header × Cursor) :=
    .error (place.fault .zeroIndentation .blockScalar start)
  match cursor.rest with
  | [] => .ok (⟨.clip, 0⟩, cursor)
  | c :: rest =>
    match chomping? c with
    | some chomping =>
      match rest with
      | d :: _ =>
        if d == '0' then zero (cursor.skip 1)
        else if d.isDigit then .ok (⟨chomping, d.toNat - 48⟩, cursor.skip 2)
        else .ok (⟨chomping, 0⟩, cursor.skip 1)
      | [] => .ok (⟨chomping, 0⟩, cursor.skip 1)
    | none =>
      if c == '0' then zero cursor
      else if c.isDigit then
        match rest.head?.bind chomping? with
        | some chomping => .ok (⟨chomping, c.toNat - 48⟩, cursor.skip 2)
        | none => .ok (⟨.clip, c.toNat - 48⟩, cursor.skip 1)
      else .ok (⟨.clip, 0⟩, cursor)

/-- The spaces and line breaks before the first line of a block whose indentation is not known
yet, with the widest column of a line so far.
-/
def detectFrom (start : Mark) (widest : Nat) (breaks : List Char)
    : List Char → Mark → Except Fault (Nat × List Char × Cursor)
  | [], mark => .ok (max widest mark.column, breaks, ⟨[], mark⟩)
  | '\r' :: '\n' :: rest, mark =>
    detectFrom start (max widest mark.column) ('\n' :: breaks) rest (mark.nextLine 2)
  | c :: rest, mark =>
    if c == ' ' then detectFrom start widest breaks rest (mark.advance 1)
    else if c == '\t' then .error ⟨.tabInIndentation, mark, some (.blockScalar, start)⟩
    else if isBreak c then
      detectFrom start (max widest mark.column) (foldedBreak c :: breaks) rest
        (mark.nextLine 1)
    else .ok (max widest mark.column, breaks, ⟨c :: rest, mark⟩)

/-- What has been read of a block. -/
structure Block where
  /-- The text so far, read backwards. -/
  text : List Char
  /-- The break behind the last line. -/
  lead : List Char
  /-- The breaks of the empty lines after it, read backwards. -/
  more : List Char
  /-- The last line began with white space. -/
  spaced : Bool
deriving DecidableEq, Repr

/-- A line that begins with this character joins what stands before it. In a folded block a
single break between two lines becomes a space, unless one of them is indented further.
-/
def Block.open (block : Block) (literal : Bool) (c : Char) : Block :=
  let folds := !literal && block.lead = ['\n'] && !block.spaced && !isSpacing c
  let joined :=
    if folds then if block.more.isEmpty then ' ' :: block.text else block.text
    else block.lead.reverse ++ block.text
  ⟨c :: (block.more ++ joined), [], [], isSpacing c⟩

/-- The text of a block that ends here. -/
def Block.close (block : Block) (chomping : Chomping) : List Char :=
  match chomping with
  | .strip => block.text.reverse
  | .clip => block.text.reverse ++ block.lead
  | .keep => block.text.reverse ++ block.lead ++ block.more.reverse

/-- The rest of a block of known indentation, inside a line or between two lines. -/
def blockFrom (literal : Bool) (chomping : Chomping) (indent : Nat) (start : Mark)
    (block : Block) (inLine : Bool)
    : List Char → Mark → Except Fault (List Char × Cursor)
  | [], mark => .ok (block.close chomping, ⟨[], mark⟩)
  | '\r' :: '\n' :: rest, mark =>
    let block :=
      if inLine then { block with lead := ['\n'] } else { block with more := '\n' :: block.more }
    blockFrom literal chomping indent start block false rest (mark.nextLine 2)
  | c :: rest, mark =>
    if isBreak c then
      let block :=
        if inLine then { block with lead := [foldedBreak c] }
        else { block with more := foldedBreak c :: block.more }
      blockFrom literal chomping indent start block false rest (mark.nextLine 1)
    else if inLine then
      blockFrom literal chomping indent start { block with text := c :: block.text } true rest
        (mark.advance 1)
    else if c == ' ' && mark.column < indent then
      blockFrom literal chomping indent start block false rest (mark.advance 1)
    else if c == '\t' && mark.column < indent then
      .error ⟨.tabInIndentation, mark, some (.blockScalar, start)⟩
    else if mark.column = indent then
      blockFrom literal chomping indent start (block.open literal c) true rest
        (mark.advance 1)
    else .ok (block.close chomping, ⟨c :: rest, mark⟩)

/-- The block at the front, inside a collection of the given margin. -/
def block (literal : Bool) (margin : Nat) (cursor : Cursor)
    : Except Fault (List Char × Cursor) := do
  let start := cursor.mark
  let (header, behind) ← header (cursor.skip 1) start
  let behind := behind.skipComment
  if !behind.atLineEnd then throw (behind.fault .commentOrBreakExpected .blockScalar start)
  let body := behind.skipBreak
  if header.increment = 0 then
    let (widest, breaks, body) ← detectFrom start 0 [] body.rest body.mark
    blockFrom literal header.chomping (max (max widest margin) 1) start
      ⟨[], [], breaks, false⟩ false body.rest body.mark
  else
    blockFrom literal header.chomping (margin - 1 + header.increment) start
      ⟨[], [], [], false⟩ false body.rest body.mark

end DocPipeline.Yaml.Scalar
