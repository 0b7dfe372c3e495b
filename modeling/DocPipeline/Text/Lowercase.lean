import DocPipeline.Text.LowercaseTable

/-! Lowercase of a whole text. Every letter goes to its small letter on its own, except capital
sigma, which has a second small letter for the end of a word.
-/

namespace DocPipeline.Text

/-- The code point lies in one of the ranges. -/
def inRanges (ranges : List (Nat × Nat)) (c : Char) : Bool :=
  ranges.any fun range => range.1 ≤ c.toNat && c.toNat ≤ range.2

/-- The run moves this code point. -/
def LetterRun.covers (run : LetterRun) (n : Nat) : Bool :=
  run.first ≤ n && n ≤ run.last && (n - run.first) % run.stride == 0

/-- The small letters of one character; only the dotted capital I has two of them. -/
def lowerChar (c : Char) : List Char :=
  if c = 'İ' then ['i', '\u0307']
  else
    match letterRuns.find? (·.covers c.toNat) with
    | some run => [Char.ofNat (c.toNat + run.offset).toNat]
    | none => [c]

/-- Looking through ignorable characters, the first other one is a letter with a case. -/
def meetsCased (cs : List Char) : Bool :=
  match cs.find? fun c => !inRanges ignorableRanges c with
  | some c => inRanges casedRanges c
  | none => false

/-- Lowercase of the rest of a text, given what stands before it, read backwards. A sigma is
final when a cased letter stands before it and none after it.
-/
def lowercaseAfter (before : List Char) : List Char → List Char
  | [] => []
  | c :: rest =>
    let small :=
      if c = 'Σ' then [if meetsCased before && !meetsCased rest then 'ς' else 'σ']
      else lowerChar c
    small ++ lowercaseAfter (c :: before) rest

/-- Lowercase of a text. -/
def lowercase (cs : List Char) : List Char :=
  lowercaseAfter [] cs

end DocPipeline.Text
