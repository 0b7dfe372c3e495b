import DocPipeline.Yaml.Fault

/-! Tokens: the marks of punctuation and the pieces of content that a document is made of, each
with the place where it begins and the place where it ends.
-/

namespace DocPipeline.Yaml

/-- How a scalar is written, as far as its meaning depends on it. -/
inductive Style where
  | plain | quoted | block
deriving DecidableEq, Repr

/-- What a token is. -/
inductive Token.Kind where
  | streamEnd
  | version (major minor : Nat)
  | tagDirective (handle expansion : List Char)
  | documentStart | documentEnd
  | blockSequenceStart | blockMappingStart | blockEnd
  | flowSequenceStart | flowSequenceEnd | flowMappingStart | flowMappingEnd
  | blockEntry | flowEntry | key | value
  | aliasName (name : List Char)
  | anchor (name : List Char)
  | tag (handle suffix : List Char)
  | scalar (text : List Char) (style : Style)
deriving DecidableEq, Repr

/-- A token with the places where it begins and ends. -/
structure Token where
  kind : Token.Kind
  start : Mark
  stop : Mark
deriving DecidableEq, Repr

/-- What is left of a text, and the place of its first character. -/
structure Cursor where
  rest : List Char
  mark : Mark
deriving DecidableEq, Repr

namespace Cursor

/-- So many characters further on the same line. -/
def skip (cursor : Cursor) (count : Nat) : Cursor :=
  ⟨cursor.rest.drop count, cursor.mark.advance count⟩

/-- The characters of the front that belong to the class, none of them a line break. -/
def taken (cursor : Cursor) (p : Char → Bool) : List Char :=
  cursor.rest.takeWhile p

/-- Behind the characters of the front that belong to the class. -/
def skipWhile (cursor : Cursor) (p : Char → Bool) : Cursor :=
  ⟨cursor.rest.dropWhile p, cursor.mark.advance (cursor.rest.takeWhile p).length⟩

/-- Behind the line break at the front, if there is one. -/
def skipBreak (cursor : Cursor) : Cursor :=
  match cursor.rest with
  | '\r' :: '\n' :: rest => ⟨rest, cursor.mark.nextLine 2⟩
  | c :: rest => if isBreak c then ⟨rest, cursor.mark.nextLine 1⟩ else cursor
  | [] => cursor

/-- Behind the blanks and the comment at the front. -/
def skipComment (cursor : Cursor) : Cursor :=
  let cursor := cursor.skipWhile isSpacing
  if cursor.rest.head? == some '#' then cursor.skipWhile fun c => !isBreak c else cursor

/-- Nothing but the end of the line or of the text follows. -/
def atLineEnd (cursor : Cursor) : Bool :=
  match cursor.rest with
  | [] => true
  | c :: _ => isBreak c

/-- A problem at this place. -/
def fault (cursor : Cursor) (problem : Problem) (construct : Construct) (start : Mark) : Fault :=
  ⟨problem, cursor.mark, some (construct, start)⟩

end Cursor
end DocPipeline.Yaml
