import DocPipeline.Yaml.Token.Name

/-! The tokens of a whole text. Indentation opens and closes the block collections, and whatever
may turn out to be a key on one line is remembered until its colon arrives, when the tokens that
announce the key are put before it.
-/

namespace DocPipeline.Yaml

/-- A place that becomes a key when a colon follows. -/
structure PossibleKey where
  /-- The number of tokens before it. -/
  position : Nat
  mark : Mark
  /-- It stands where only a key can stand. -/
  required : Bool
deriving DecidableEq, Repr

/-- What has been read of a text, and what is left of it. -/
structure Scanner where
  cursor : Cursor
  /-- The tokens so far. -/
  tokens : Array Token
  /-- One more than the column of each open block collection, the innermost first. -/
  margins : List Nat
  /-- A key may begin here. -/
  keyAllowed : Bool
  /-- The possible key of this level. -/
  key : Option PossibleKey
  /-- The possible keys around the open brackets, the innermost first. -/
  outer : List (Option PossibleKey)
deriving Repr

namespace Scanner

/-- Before the first character of a text. -/
def initial (text : List Char) : Scanner where
  cursor := ⟨text, .start⟩
  tokens := #[]
  margins := []
  keyAllowed := true
  key := none
  outer := []

/-- The scanner stands inside brackets. -/
def inFlow (s : Scanner) : Bool :=
  !s.outer.isEmpty

/-- One more than the column of the innermost block collection; zero outside of all. -/
def margin (s : Scanner) : Nat :=
  s.margins.headD 0

/-- The place of the next character. -/
def mark (s : Scanner) : Mark :=
  s.cursor.mark

/-- A problem at this place, outside any construct. -/
def fault (s : Scanner) (problem : Problem) : Fault :=
  ⟨problem, s.mark, none⟩

/-- With one more token. -/
def push (s : Scanner) (kind : Token.Kind) (start stop : Mark) : Scanner :=
  { s with tokens := s.tokens.push ⟨kind, start, stop⟩ }

/-- With a token put at a position among those so far. -/
def insert (s : Scanner) (position : Nat) (kind : Token.Kind) (mark : Mark) : Scanner :=
  { s with tokens := s.tokens.insertIdxIfInBounds position ⟨kind, mark, mark⟩ }

/-- A token of so many characters. -/
def take (s : Scanner) (kind : Token.Kind) (count : Nat) : Scanner :=
  let behind := s.cursor.skip count
  { s with cursor := behind }.push kind s.mark behind.mark

/-- Block collections that lie deeper than the column end here. -/
def closeBlocks (limit : Nat) (mark : Mark)
    : List Nat → Array Token → List Nat × Array Token
  | [], tokens => ([], tokens)
  | margin :: margins, tokens =>
    if limit < margin then closeBlocks limit mark margins (tokens.push ⟨.blockEnd, mark, mark⟩)
    else (margin :: margins, tokens)

/-- Ends the block collections whose margin exceeds the limit, outside brackets. -/
def unroll (s : Scanner) (limit : Nat) : Scanner :=
  if s.inFlow then s
  else
    let (margins, tokens) := closeBlocks limit s.mark s.margins s.tokens
    { s with margins := margins, tokens := tokens }

/-- Opens a block collection at the place, if it lies deeper than those that are open; its token
goes to the position.
-/
def roll (s : Scanner) (kind : Token.Kind) (position : Nat) (mark : Mark) : Scanner :=
  if !s.inFlow && s.margin < mark.column + 1 then
    { s with margins := (mark.column + 1) :: s.margins }.insert position kind mark
  else s

/-- Forgets the possible key of this level, which must not be required. -/
def dropKey (s : Scanner) : Except Fault Scanner :=
  match s.key with
  | some key =>
    if key.required then .error ⟨.colonMissing, s.mark, some (.simpleKey, key.mark)⟩
    else .ok { s with key := none }
  | none => .ok s

/-- Remembers that a key may begin here. -/
def saveKey (s : Scanner) : Except Fault Scanner :=
  if s.keyAllowed then do
    let s ← s.dropKey
    let required := !s.inFlow && s.margin = s.mark.column + 1
    return { s with key := some ⟨s.tokens.size, s.mark, required⟩ }
  else .ok s

/-- A key must end on its line and within so many characters. -/
def longestKey : Nat := 1024

/-- The key can no longer be one. -/
def PossibleKey.isStale (key : PossibleKey) (mark : Mark) : Bool :=
  key.mark.line < mark.line || key.mark.index + longestKey < mark.index

/-- Forgets a possible key that has become stale, which must not be required. -/
def refresh (mark : Mark) (key : Option PossibleKey)
    : Except Fault (Option PossibleKey) :=
  match key with
  | some key =>
    if PossibleKey.isStale key mark then
      if key.required then .error ⟨.colonMissing, mark, some (.simpleKey, key.mark)⟩
      else .ok none
    else .ok (some key)
  | none => .ok none

/-- Forgets all possible keys that have become stale. -/
def dropStaleKeys (s : Scanner) : Except Fault Scanner := do
  let key ← refresh s.mark s.key
  let outer ← s.outer.mapM (refresh s.mark)
  return { s with key := key, outer := outer }

/-- Behind the white space and the comments at the front. Outside brackets a tab counts as white
space only where no key may begin, and a new line lets one begin.
-/
def toNextToken (flow : Bool) : Bool → Bool → List Char → Mark → Bool × Cursor
  | allowed, _, [], mark => (allowed, ⟨[], mark⟩)
  | allowed, _, '\r' :: '\n' :: rest, mark =>
    toNextToken flow (allowed || !flow) false rest (mark.nextLine 2)
  | allowed, comment, c :: rest, mark =>
    if isBreak c then toNextToken flow (allowed || !flow) false rest (mark.nextLine 1)
    else if comment || c == '#' then toNextToken flow allowed true rest (mark.advance 1)
    else if c == ' ' || ((flow || !allowed) && c == '\t')
        || (c == '\uFEFF' && mark.column == 0) then
      toNextToken flow allowed false rest (mark.advance 1)
    else (allowed, ⟨c :: rest, mark⟩)

/-- A separator of documents, a directive or the end of the text ends all blocks. -/
def endBlocks (s : Scanner) : Except Fault Scanner := do
  let s ← (s.unroll 0).dropKey
  return { s with keyAllowed := false }

/-- An opening bracket. -/
def openFlow (s : Scanner) (kind : Token.Kind) : Except Fault Scanner := do
  let s ← s.saveKey
  return { s with key := none, outer := s.key :: s.outer, keyAllowed := true }.take kind 1

/-- A closing bracket. -/
def closeFlow (s : Scanner) (kind : Token.Kind) : Except Fault Scanner := do
  let s ← s.dropKey
  let s :=
    match s.outer with
    | key :: outer => { s with key := key, outer := outer }
    | [] => s
  return { s with keyAllowed := false }.take kind 1

/-- The dash of a sequence entry. -/
def blockEntry (s : Scanner) : Except Fault Scanner := do
  if !s.inFlow && !s.keyAllowed then throw (s.fault .entryNotAllowed)
  let s ← (s.roll .blockSequenceStart s.tokens.size s.mark).dropKey
  return { s with keyAllowed := true }.take .blockEntry 1

/-- The question mark before a key. -/
def explicitKey (s : Scanner) : Except Fault Scanner := do
  if !s.inFlow && !s.keyAllowed then throw (s.fault .keyNotAllowed)
  let s ← (s.roll .blockMappingStart s.tokens.size s.mark).dropKey
  return { s with keyAllowed := !s.inFlow }.take .key 1

/-- The colon before a value, which makes the possible key one. -/
def value (s : Scanner) : Except Fault Scanner := do
  match s.key with
  | some key =>
    let s := s.insert key.position .key key.mark
    let s := s.roll .blockMappingStart key.position key.mark
    return { s with key := none, keyAllowed := false }.take .value 1
  | none =>
    if !s.inFlow && !s.keyAllowed then throw (s.fault .valueNotAllowed)
    let s := s.roll .blockMappingStart s.tokens.size s.mark
    return { s with keyAllowed := !s.inFlow }.take .value 1

/-- Content that may be a key: remembers the place, then reads on. -/
def content {α : Type} (s : Scanner) (read : Cursor → Except Fault (α × Cursor))
    (kind : α → Token.Kind) : Except Fault Scanner := do
  let s ← s.saveKey
  let (parts, behind) ← read s.cursor
  return { s with cursor := behind, keyAllowed := false }.push (kind parts) s.mark behind.mark

/-- A block of text. -/
def block (s : Scanner) (literal : Bool) : Except Fault Scanner := do
  let s ← s.dropKey
  let (text, behind) ← Scalar.block literal s.margin s.cursor
  return { s with cursor := behind, keyAllowed := true }.push (.scalar text .block) s.mark
    behind.mark

/-- A plain scalar; a key may begin behind it when a line has ended there. -/
def plain (s : Scanner) : Except Fault Scanner := do
  let s ← s.saveKey
  let (text, broken, behind) ← Scalar.plain s.inFlow s.margin s.cursor
  return { s with cursor := behind, keyAllowed := broken }.push (.scalar text .plain) s.mark
    behind.mark

/-- Characters that begin no plain scalar. -/
def isIndicator (c : Char) : Bool :=
  "-?:,[]\x7b\x7d#&*!|>'\"%@`".contains c

/-- A plain scalar can begin with this. -/
def startsPlain (flow : Bool) (c : Char) (rest : List Char) : Bool :=
  !(isSpacing c || isBreak c || isIndicator c)
    || (c == '-' && !rest.head?.any isSpacing)
    || (!flow && (c == '?' || c == ':') && !endsWord rest)

/-- Reads the token that begins with this character. -/
def fetch (s : Scanner) (c : Char) (rest : List Char) : Except Fault Scanner := do
  if s.mark.column == 0 && c == '%' then
    let s ← s.endBlocks
    let (kind, behind) ← Name.directive s.cursor
    return { s with cursor := behind }.push kind s.mark behind.mark
  if isSeparator s.mark (c :: rest) then
    let s ← s.endBlocks
    return s.take (if c == '-' then .documentStart else .documentEnd) 3
  match c with
  | '[' => s.openFlow .flowSequenceStart
  | '{' => s.openFlow .flowMappingStart
  | ']' => s.closeFlow .flowSequenceEnd
  | '}' => s.closeFlow .flowMappingEnd
  | ',' =>
    let s ← s.dropKey
    return { s with keyAllowed := true }.take .flowEntry 1
  | '*' => s.content (Name.anchor .aliasName) .aliasName
  | '&' => s.content (Name.anchor .anchor) .anchor
  | '!' => s.content (Name.tag s.inFlow) fun parts => .tag parts.1 parts.2
  | '\'' => s.content (Scalar.quoted true) (.scalar · .quoted)
  | '"' => s.content (Scalar.quoted false) (.scalar · .quoted)
  | _ =>
    if c == '-' && endsWord rest then s.blockEntry
    else if c == '?' && (s.inFlow || endsWord rest) then s.explicitKey
    else if c == ':' && (s.inFlow || endsWord rest) then s.value
    else if c == '|' && !s.inFlow then s.block true
    else if c == '>' && !s.inFlow then s.block false
    else if startsPlain s.inFlow c rest then s.plain
    else throw (s.fault .noTokenStart)

/-- Behind the white space before a token, where stale keys are forgotten and the indentation has
ended the blocks that lie deeper.
-/
def approach (s : Scanner) : Except Fault Scanner := do
  let (allowed, cursor) := toNextToken s.inFlow s.keyAllowed false s.cursor.rest s.mark
  let s ← { s with cursor := cursor, keyAllowed := allowed }.dropStaleKeys
  return s.unroll (s.mark.column + 1)

/-- At the end of the text, which counts as the beginning of a line. -/
def finish (s : Scanner) : Except Fault (List Token) := do
  let mark := if s.mark.column = 0 then s.mark else s.mark.nextLine 0
  let s ← { s with cursor := ⟨[], mark⟩ }.endBlocks
  return (s.push .streamEnd s.mark s.mark).tokens.toList

/-- All tokens from here to the end of the text, in at most so many steps. Every token takes at
least one character, so more steps than characters are enough.
-/
def run : Nat → Scanner → Except Fault (List Token)
  | 0, s => throw (s.fault .noTokenStart)
  | steps + 1, s => do
    let s ← s.approach
    match s.cursor.rest with
    | [] => s.finish
    | c :: rest => (← s.fetch c rest).run steps

end Scanner

/-- The tokens of a text. -/
def Token.scan (text : List Char) : Except Fault (List Token) :=
  (Scanner.initial text).run (text.length + 1)

end DocPipeline.Yaml
