import DocPipeline.Yaml.Meaning

/-! Writing documents in block style. A text is written plainly when it reads back as itself, on
lines of its own when it has several, and in quotes otherwise.
-/

namespace DocPipeline.Yaml

/-- What can be written: texts, lists, and records whose keys are plain names. -/
inductive Tree where
  | text (s : String)
  | list (items : List Tree)
  | record (fields : List (String × Tree))

namespace Writer

/-- The character can stand for itself in a written document. -/
def isPrintable (c : Char) : Bool :=
  let n := c.toNat
  n == 0x0A || (0x20 ≤ n && n ≤ 0x7E) || (0xA0 ≤ n && n ≤ 0xFFFD && n != 0xFEFF)
    || 0x10000 ≤ n

/-- The first character of a plain scalar would be taken for punctuation. -/
def startsBadly (c : Char) (rest : List Char) : Bool :=
  "#,[]\x7b\x7d&*!|>'\"%@`".contains c
    || ((c == '?' || c == ':' || c == '-') && endsWord rest)

/-- The characters after the first hold a colon that ends a word or a number sign that begins
one, either of which ends a plain scalar.
-/
def interrupted (before : Char) : List Char → Bool
  | [] => false
  | c :: rest =>
    (c == ':' && endsWord rest)
      || (c == '#' && (isSpacing before || isBreak before))
      || interrupted c rest

/-- Punctuation would be seen in the text if it were written plainly. -/
def hasIndicators (cs : List Char) : Bool :=
  match cs with
  | '-' :: '-' :: '-' :: _ => true
  | '.' :: '.' :: '.' :: _ => true
  | c :: rest => startsBadly c rest || interrupted c rest
  | [] => false

/-- A character of the first kind stands right before one of the second. -/
def adjacent (p q : Char → Bool) : List Char → Bool
  | a :: b :: rest => (p a && q b) || adjacent p q (b :: rest)
  | _ => false

/-- The first or the last character is a space or a line break. -/
def hasOuterSpace (cs : List Char) : Bool :=
  let outer (c : Char) := c == ' ' || isBreak c
  cs.head?.any outer || cs.getLast?.any outer

/-- Quotes cannot keep the text: a character has no picture, or a space stands next to a break,
where it would be lost.
-/
def needsEscapes (cs : List Char) : Bool :=
  cs.any (fun c => !isPrintable c) || adjacent (· == ' ') isBreak cs

/-- The text can be written without quotes. -/
def plainAllowed (cs : List Char) : Bool :=
  !hasOuterSpace cs && !cs.any isBreak && !needsEscapes cs && !hasIndicators cs

/-- The text can be written in single quotes. -/
def singleAllowed (cs : List Char) : Bool :=
  !adjacent isBreak (· == ' ') cs && !needsEscapes cs

/-- The text can be written on lines of its own. -/
def blockAllowed (cs : List Char) : Bool :=
  !cs.isEmpty && cs.getLast? != some ' ' && !needsEscapes cs

/-- A text that would be taken for something else without quotes. -/
def isAmbiguous (s : String) : Bool :=
  Meaning.ofText s != .text || Meaning.isDigitText s.toList

/-- The ways to write a text. -/
inductive Form where
  | plain | single | double | block
deriving DecidableEq, Repr

/-- The way to write a text. -/
def formOf (s : String) : Form :=
  let cs := s.toList
  if cs.contains '\n' then if blockAllowed cs then .block else .double
  else if !isAmbiguous s && plainAllowed cs then .plain
  else if singleAllowed cs then .single
  else .double

/-- So many spaces. -/
def spaces (count : Nat) : List Char :=
  List.replicate count ' '

/-- The inside of single quotes. Behind a break the text goes on after the indentation, which is
dropped when it is read.
-/
def singleFrom (indent : Nat) (fresh : Bool) : List Char → List Char
  | [] => if fresh then spaces indent else []
  | c :: rest =>
    if isBreak c then c :: singleFrom indent true rest
    else
      (if fresh then spaces indent else []) ++ (if c == '\'' then ['\'', '\''] else [c])
        ++ singleFrom indent false rest

/-- A digit of a number written in hexadecimal. -/
def hexDigit (n : Nat) : Char :=
  if n < 10 then Char.ofNat (48 + n) else Char.ofNat (55 + n)

/-- The last `width` digits of a number written in hexadecimal. -/
def hexDigits (n : Nat) : Nat → List Char
  | 0 => []
  | width + 1 => hexDigits (n / 16) width ++ [hexDigit (n % 16)]

/-- A character behind a backslash. -/
def escaped (c : Char) : List Char :=
  let n := c.toNat
  let body :=
    if n = 0x00 then ['0']
    else if n = 0x07 then ['a']
    else if n = 0x08 then ['b']
    else if n = 0x09 then ['t']
    else if n = 0x0A then ['n']
    else if n = 0x0B then ['v']
    else if n = 0x0C then ['f']
    else if n = 0x0D then ['r']
    else if n = 0x1B then ['e']
    else if n = 0x22 then ['"']
    else if n = 0x5C then ['\\']
    else if n = 0x85 then ['N']
    else if n = 0x2028 then ['L']
    else if n = 0x2029 then ['P']
    else if n ≤ 0xFF then 'x' :: hexDigits n 2
    else if n ≤ 0xFFFF then 'u' :: hexDigits n 4
    else 'U' :: hexDigits n 8
  '\\' :: body

/-- A character inside double quotes. -/
def doubleChar (c : Char) : List Char :=
  if !isPrintable c || isBreak c || c == '"' || c == '\\' then escaped c else [c]

/-- The indicators of a block: the indentation where the text hides it, and what becomes of the
breaks at the end.
-/
def blockHeader (cs : List Char) : List Char :=
  let hint := if cs.head?.any fun c => c == ' ' || isBreak c then ['2'] else []
  let chomping :=
    match cs.reverse with
    | c :: before =>
      if !isBreak c then ['-']
      else
        match before with
        | [] => ['+']
        | d :: _ => if isBreak d then ['+'] else []
    | [] => ['-']
  '|' :: hint ++ chomping

/-- The lines of a block, each that is not empty behind its indentation. -/
def blockLines (indent : Nat) (fresh : Bool) : List Char → List Char
  | [] => []
  | c :: rest =>
    if isBreak c then c :: blockLines indent true rest
    else (if fresh then spaces indent else []) ++ c :: blockLines indent false rest

/-- A text behind its key, with the end of its last line. -/
def scalar (indent : Nat) (s : String) : List Char :=
  let cs := s.toList
  match formOf s with
  | .plain => cs ++ ['\n']
  | .single => '\'' :: singleFrom indent false cs ++ ['\'', '\n']
  | .double => '"' :: cs.flatMap doubleChar ++ ['"', '\n']
  | .block =>
    blockHeader cs ++ '\n' :: blockLines indent true cs
      ++ (if cs.getLast?.any isBreak then [] else ['\n'])

mutual

/-- A value behind a key, or behind a dash, whose collection is indented so far. -/
def value (indent : Nat) : Tree → List Char
  | .text s => ' ' :: scalar (indent + 2) s
  | .list [] => " []\n".toList
  | .list (item :: items) => '\n' :: listFrom indent (item :: items)
  | .record [] => " \x7b\x7d\n".toList
  | .record (field :: fields) => '\n' :: recordFrom (indent + 2) true (field :: fields)

/-- The items of a list, each behind a dash. -/
def listFrom (indent : Nat) : List Tree → List Char
  | [] => []
  | item :: items => spaces indent ++ '-' :: itemFrom indent item ++ listFrom indent items

/-- An item behind its dash; a record begins on the same line. -/
def itemFrom (indent : Nat) : Tree → List Char
  | .text s => ' ' :: scalar (indent + 2) s
  | .list [] => " []\n".toList
  | .list (item :: items) => '\n' :: listFrom (indent + 2) (item :: items)
  | .record [] => " \x7b\x7d\n".toList
  | .record (field :: fields) => ' ' :: recordFrom (indent + 2) false (field :: fields)

/-- The fields of a record, each on its own lines; the first one may stand behind a dash. -/
def recordFrom (indent : Nat) (indentFirst : Bool) : List (String × Tree) → List Char
  | [] => []
  | (key, tree) :: fields =>
    (if indentFirst then spaces indent else []) ++ key.toList ++ ':' :: value indent tree
      ++ recordFrom indent true fields

end

/-- A document whose root is a record. -/
def document (fields : List (String × Tree)) : String :=
  String.ofList (recordFrom 0 true fields)

end Writer
end DocPipeline.Yaml
