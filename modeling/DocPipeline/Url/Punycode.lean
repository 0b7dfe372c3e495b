/-! Names in other scripts written with ASCII letters alone. The basic characters come first; each
other character is then inserted by a number that tells how far it lies from the one before.
-/

namespace DocPipeline.Url.Punycode

/-- The letter or digit of a value below thirty-six. -/
def digit (value : Nat) : Char :=
  if value < 26 then Char.ofNat (97 + value) else Char.ofNat (22 + value)

/-- The value of a letter or digit. -/
def value? (c : Char) : Option Nat :=
  if 'a' ≤ c ∧ c ≤ 'z' then some (c.toNat - 97)
  else if 'A' ≤ c ∧ c ≤ 'Z' then some (c.toNat - 65)
  else if c.isDigit then some (c.toNat - 22)
  else none

/-- The least value of a digit after which more digits follow. -/
def threshold (place bias : Nat) : Nat :=
  min (max (place - bias) 1) 26

/-- A number is divided until it is small, counting the divisions in steps of thirty-six. -/
def shrink (delta steps : Nat) : Nat × Nat :=
  if 455 < delta then shrink (delta / 35) (steps + 36) else (delta, steps)
termination_by delta
decreasing_by omega

/-- The bias for the next number, after one that inserted the last of so many characters. -/
def adapt (delta count : Nat) (first : Bool) : Nat :=
  let delta := if first then delta / 700 else delta / 2
  let (delta, steps) := shrink (delta + delta / count) 0
  steps + 36 * delta / (delta + 38)

/-- The digits of a number. -/
def writeNumber (bias place n : Nat) : List Char :=
  let t := threshold place bias
  if n < t then [digit n]
  else
    digit (t + (n - t) % (36 - t)) :: writeNumber bias (place + 36) ((n - t) / (36 - t))
termination_by n
decreasing_by
  have h1 : 1 ≤ threshold place bias := by unfold threshold; omega
  have h2 : threshold place bias ≤ 26 := by unfold threshold; omega
  exact Nat.lt_of_le_of_lt (Nat.div_le_self _ _) (by omega)

/-- What has been written, and the state of the numbers. -/
structure Writing where
  output : List Char
  delta : Nat
  bias : Nat
  handled : Nat

/-- Goes past one character while those equal to `next` are written. -/
def Writing.pass (basic next : Nat) (w : Writing) (c : Char) : Writing :=
  if c.toNat < next then { w with delta := w.delta + 1 }
  else if c.toNat = next then
    { output := w.output ++ writeNumber w.bias 36 w.delta
      delta := 0
      bias := adapt w.delta (w.handled + 1) (w.handled = basic)
      handled := w.handled + 1 }
  else w

/-- The different code points beyond ASCII, in ascending order. -/
def codePoints (cs : List Char) : List Nat :=
  (((cs.map Char.toNat).filter (0x80 ≤ ·)).mergeSort).eraseDups

/-- A name in ASCII letters. -/
def encode (cs : List Char) : List Char :=
  let basic := cs.filter (·.toNat < 0x80)
  let start : Writing :=
    ⟨if basic.isEmpty then [] else basic ++ ['-'], 0, 72, basic.length⟩
  let (w, _) := (codePoints cs).foldl (fun (w, n) next =>
    let w := { w with delta := w.delta + (next - n) * (w.handled + 1) }
    let w := cs.foldl (Writing.pass basic.length next) w
    ({ w with delta := w.delta + 1 }, next + 1)) (start, 0x80)
  w.output

/-- The number at the front, by the weight of its digits, and what follows it. -/
def readNumber (bias : Nat) : Nat → Nat → Nat → List Char → Option (Nat × List Char)
  | _, _, _, [] => none
  | place, weight, n, c :: rest => do
    let d ← value? c
    let n := n + d * weight
    let t := threshold place bias
    if d < t then some (n, rest) else readNumber bias (place + 36) (weight * (36 - t)) n rest

/-- The number is that of a character. -/
def isCharNumber (n : Nat) : Bool :=
  n < 0xD800 || (0xDFFF < n && n ≤ 0x10FFFF)

/-- Inserts characters until the numbers are used up; each number takes a digit at least. -/
def insertFrom (output : List Char) (n i bias : Nat) (first : Bool)
    : Nat → List Char → Option (List Char)
  | _, [] => some output
  | 0, _ => none
  | fuel + 1, cs => do
    let (delta, rest) ← readNumber bias 36 1 0 cs
    let count := output.length + 1
    let i := i + delta
    let n := n + i / count
    if !isCharNumber n then none
    else
      let place := i % count
      insertFrom (output.take place ++ Char.ofNat n :: output.drop place) n (place + 1)
        (adapt delta count first) false fuel rest

/-- The name that ASCII letters stand for. -/
def decode (cs : List Char) : Option (List Char) :=
  if cs.any (0x80 ≤ ·.toNat) then none
  else
    let tail := (cs.reverse.takeWhile (· != '-')).reverse
    let head := cs.take (cs.length - tail.length - 1)
    insertFrom head 0x80 0 72 true tail.length tail

end DocPipeline.Url.Punycode
