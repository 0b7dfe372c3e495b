/-! White space in the Unicode sense, and the two things done with it: trimming a text at both
ends and cutting it into words.
-/

namespace DocPipeline.Text

/-- White space: the controls from tab to carriage return, the space, and the separators of
the other scripts.
-/
def isBlank (c : Char) : Bool :=
  let n := c.toNat
  (9 ≤ n && n ≤ 13) || n == 0x20 || n == 0x85 || n == 0xA0 || n == 0x1680
    || (0x2000 ≤ n && n ≤ 0x200A) || n == 0x2028 || n == 0x2029 || n == 0x202F
    || n == 0x205F || n == 0x3000

/-- The text without the white space at its end. -/
def trimEnd (cs : List Char) : List Char :=
  (cs.reverse.dropWhile isBlank).reverse

/-- The text without the white space at its two ends. -/
def trim (cs : List Char) : List Char :=
  trimEnd (cs.dropWhile isBlank)

/-- The text without the white space at its two ends. -/
def trimmed (s : String) : String :=
  String.ofList (trim s.toList)

/-- Nothing is left of the text after trimming. -/
def isEmptyTrimmed (s : String) : Bool :=
  (trim s.toList).isEmpty

/-- The maximal runs of characters that are not white space, with `word` the run in progress,
read backwards.
-/
def wordsFrom (word : List Char) : List Char → List (List Char)
  | [] => if word.isEmpty then [] else [word.reverse]
  | c :: rest =>
    if isBlank c then
      if word.isEmpty then wordsFrom [] rest else word.reverse :: wordsFrom [] rest
    else wordsFrom (c :: word) rest

/-- The maximal runs of characters that are not white space, in order. -/
def words (cs : List Char) : List (List Char) :=
  wordsFrom [] cs

end DocPipeline.Text
