/-! Places in a document, and the classes of characters that its layout is made of. -/

namespace DocPipeline.Yaml

/-- A place in a text: the number of characters before it, its line and its column, all counted
from zero.
-/
structure Mark where
  index : Nat
  line : Nat
  column : Nat
deriving DecidableEq, Repr

namespace Mark

/-- The beginning of a text. -/
def start : Mark := ⟨0, 0, 0⟩

/-- So many characters further on the same line. -/
def advance (mark : Mark) (count : Nat) : Mark :=
  { mark with index := mark.index + count, column := mark.column + count }

/-- The beginning of the next line, after a line break of so many characters. -/
def nextLine (mark : Mark) (count : Nat) : Mark :=
  ⟨mark.index + count, mark.line + 1, 0⟩

/-- The place as a reader counts. -/
def text (mark : Mark) : String :=
  "line " ++ toString (mark.line + 1) ++ " column " ++ toString (mark.column + 1)

/-- The place stands at the very beginning. -/
def isStart (mark : Mark) : Bool :=
  mark.line == 0 && mark.column == 0

/-- The place as the end of a report, left out for the very beginning. -/
def suffix (mark : Mark) : String :=
  if mark.isStart then "" else " at " ++ mark.text

end Mark

/-- Two places of equal line and column are the same to a reader. -/
def Mark.same (a b : Mark) : Bool :=
  a.line == b.line && a.column == b.column

/-- A space or a tab. -/
def isSpacing (c : Char) : Bool :=
  c == ' ' || c == '\t'

/-- A character that ends a line. -/
def isBreak (c : Char) : Bool :=
  c == '\n' || c == '\r' || c == '\u0085' || c == '\u2028' || c == '\u2029'

/-- The text ends here, or goes on with white space. -/
def endsWord : List Char → Bool
  | [] => true
  | c :: _ => isSpacing c || isBreak c

/-- What a line break leaves in the text of a scalar: the line and paragraph separators stay,
every other break is a newline.
-/
def foldedBreak (c : Char) : Char :=
  if c == '\u2028' || c == '\u2029' then c else '\n'

/-- A letter, digit, hyphen or underscore. -/
def isNameChar (c : Char) : Bool :=
  c.isAlphanum || c == '-' || c == '_'

/-- The character may stand in a document at all. -/
def isAllowed (c : Char) : Bool :=
  let n := c.toNat
  n == 0x09 || n == 0x0A || n == 0x0D || (0x20 ≤ n && n ≤ 0x7E) || n == 0x85
    || (0xA0 ≤ n && n ≤ 0xFFFD) || 0x10000 ≤ n

/-- A line that begins with three of this character and ends a word there separates
documents.
-/
def isSeparator (mark : Mark) (cs : List Char) : Bool :=
  mark.column == 0 &&
    match cs with
    | '-' :: '-' :: '-' :: rest => endsWord rest
    | '.' :: '.' :: '.' :: rest => endsWord rest
    | _ => false

end DocPipeline.Yaml
