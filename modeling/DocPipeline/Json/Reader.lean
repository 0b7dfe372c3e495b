import DocPipeline.Json.Basic

/-! Reading JSON. What is read is a list of characters with a gap for each byte that belongs to
no character; such bytes can only stand inside strings.
-/

namespace DocPipeline.Json

/-- A character, or none for a byte of no character. -/
abbrev Symbol := Option Char

/-- The symbols of a text. -/
def symbolsOfText (s : String) : List Symbol :=
  s.toList.map some

/-- The symbols of a byte sequence. -/
def symbolsOfBytes (bytes : Bytes) : List Symbol :=
  (Text.Utf8.pieces bytes).flatMap fun
    | .char c => [some c]
    | .invalid bad => bad.map fun _ => none
    | .cut bad => bad.map fun _ => none

namespace Reader

/-- White space between the parts of a value. -/
def isSpace (s : Symbol) : Bool :=
  s == some ' ' || s == some '\t' || s == some '\n' || s == some '\r'

/-- Behind the white space at the front. -/
def skipSpace (symbols : List Symbol) : List Symbol :=
  symbols.dropWhile isSpace

/-- A decimal digit. -/
def isDigit (s : Symbol) : Bool :=
  s.any Char.isDigit

/-- The digits at the front, of which there is at least one. -/
def digits (symbols : List Symbol) : Option (List Char × List Symbol) :=
  let front := symbols.takeWhile isDigit
  if front.isEmpty then none
  else some (front.filterMap id, symbols.dropWhile isDigit)

/-- The whole part of a number, which begins with zero only when it is zero. -/
def wholePart : List Symbol → Option (List Char × List Symbol)
  | some '0' :: rest => if rest.head?.any isDigit then none else some (['0'], rest)
  | symbols => digits symbols

/-- The fraction of a number, if there is one. -/
def fractionPart : List Symbol → Option (List Char × List Symbol)
  | some '.' :: rest => (digits rest).map fun (ds, rest) => ('.' :: ds, rest)
  | symbols => some ([], symbols)

/-- The exponent of a number, if there is one. -/
def exponentPart : List Symbol → Option (List Char × List Symbol)
  | some e :: rest =>
    if e == 'e' || e == 'E' then
      match rest with
      | some '+' :: rest => (digits rest).map fun (ds, rest) => (e :: '+' :: ds, rest)
      | some '-' :: rest => (digits rest).map fun (ds, rest) => (e :: '-' :: ds, rest)
      | rest => (digits rest).map fun (ds, rest) => (e :: ds, rest)
    else some ([], some e :: rest)
  | symbols => some ([], symbols)

/-- The number at the front. -/
def number (symbols : List Symbol) : Option (Json × List Symbol) := do
  let (sign, rest) :=
    match symbols with
    | some '-' :: rest => (['-'], rest)
    | rest => ([], rest)
  let (whole, rest) ← wholePart rest
  let (fraction, rest) ← fractionPart rest
  let (exponent, rest) ← exponentPart rest
  return (.number (sign ++ whole ++ fraction ++ exponent), rest)

/-- The value of a hexadecimal digit. -/
def hexDigit? (c : Char) : Option Nat :=
  if c.isDigit then some (c.toNat - 48)
  else if 'a' ≤ c ∧ c ≤ 'f' then some (c.toNat - 87)
  else if 'A' ≤ c ∧ c ≤ 'F' then some (c.toNat - 55)
  else none

/-- The character behind a backslash, apart from escapes by number. -/
def shortEscape? (c : Char) : Option Char :=
  match c with
  | '"' => some '"'
  | '\\' => some '\\'
  | '/' => some '/'
  | 'b' => some '\x08'
  | 'f' => some '\x0c'
  | 'n' => some '\n'
  | 'r' => some '\r'
  | 't' => some '\t'
  | _ => none

/-- What has been read of a string: its characters, read backwards, unless it holds what is no
text, and the first half of a surrogate pair whose second half must follow.
-/
structure Partial where
  text : Option (List Char)
  half : Option Nat

namespace Partial

/-- The string holds what is no text. -/
def spoil : Partial := ⟨none, none⟩

/-- With one more character, which may not follow half a pair. -/
def add (p : Partial) (c : Char) : Partial :=
  match p.half with
  | some _ => spoil
  | none => ⟨p.text.map (c :: ·), none⟩

/-- With one more unit of an escape by number. -/
def addUnit (p : Partial) (unit : Nat) : Partial :=
  if 0xD800 ≤ unit && unit < 0xDC00 then
    if p.half.isSome then spoil else ⟨p.text, some unit⟩
  else if 0xDC00 ≤ unit && unit < 0xE000 then
    match p.half with
    | some high =>
      let code := 0x10000 + (high - 0xD800) * 0x400 + (unit - 0xDC00)
      ⟨p.text.map (Char.ofNat code :: ·), none⟩
    | none => spoil
  else p.add (Char.ofNat unit)

/-- The string, when it ends here. -/
def close (p : Partial) : Option String :=
  match p.half with
  | some _ => none
  | none => p.text.map fun cs => String.ofList cs.reverse

end Partial

/-- Where a reader of a string stands: between characters, behind a backslash, or inside an
escape by number with so many digits to come.
-/
inductive Escape where
  | outside
  | opened
  | digits (left value : Nat)

/-- The rest of a string, to its closing quote. -/
def stringFrom (p : Partial) : Escape → List Symbol → Option (Option String × List Symbol)
  | _, [] => none
  | .digits left value, s :: rest =>
    match s.bind hexDigit? with
    | none => none
    | some digit =>
      let value := value * 16 + digit
      if 1 < left then stringFrom p (.digits (left - 1) value) rest
      else stringFrom (p.addUnit value) .outside rest
  | .opened, s :: rest =>
    match s with
    | none => none
    | some c =>
      if c == 'u' then stringFrom p (.digits 4 0) rest
      else
        match shortEscape? c with
        | some d => stringFrom (p.add d) .outside rest
        | none => none
  | .outside, s :: rest =>
    match s with
    | none => stringFrom .spoil .outside rest
    | some c =>
      if c == '"' then some (p.close, rest)
      else if c == '\\' then stringFrom p .opened rest
      else if c.toNat < 0x20 then none
      else stringFrom (p.add c) .outside rest

/-- The string behind an opening quote. -/
def string (symbols : List Symbol) : Option (Option String × List Symbol) :=
  stringFrom ⟨some [], none⟩ .outside symbols

/-- Behind a word, if the front is that word. -/
def word (expected : List Char) (symbols : List Symbol) : Option (List Symbol) :=
  if symbols.take expected.length = expected.map some then
    some (symbols.drop expected.length)
  else none

mutual

/-- The value at the front, without white space before it. -/
def value : Nat → List Symbol → Option (Json × List Symbol)
  | 0, _ => none
  | fuel + 1, symbols =>
    match symbols with
    | some 'n' :: rest => (word "ull".toList rest).map (Json.null, ·)
    | some 't' :: rest => (word "rue".toList rest).map (Json.bool true, ·)
    | some 'f' :: rest => (word "alse".toList rest).map (Json.bool false, ·)
    | some '"' :: rest => (string rest).map fun (s, rest) => (.string s, rest)
    | some '[' :: rest => (items fuel true rest).map fun (vs, rest) => (.array vs, rest)
    | some '{' :: rest => (fields fuel true rest).map fun (fs, rest) => (.object fs, rest)
    | _ => number symbols

/-- The items of an array, to its end. -/
def items : Nat → Bool → List Symbol → Option (List Json × List Symbol)
  | 0, _, _ => none
  | fuel + 1, first, symbols =>
    match skipSpace symbols with
    | some ']' :: rest => some ([], rest)
    | symbols => do
      let symbols ← if first then some symbols else comma symbols
      let (v, rest) ← value fuel (skipSpace symbols)
      let (vs, rest) ← items fuel false rest
      return (v :: vs, rest)

/-- The fields of an object, to its end. -/
def fields : Nat → Bool → List Symbol → Option (List (Option String × Json) × List Symbol)
  | 0, _, _ => none
  | fuel + 1, first, symbols =>
    match skipSpace symbols with
    | some '}' :: rest => some ([], rest)
    | symbols => do
      let symbols ← if first then some symbols else comma symbols
      let rest ← word ['"'] (skipSpace symbols)
      let (key, rest) ← string rest
      let rest ← word [':'] (skipSpace rest)
      let (v, rest) ← value fuel (skipSpace rest)
      let (fs, rest) ← fields fuel false rest
      return ((key, v) :: fs, rest)

/-- Behind the comma at the front. -/
def comma (symbols : List Symbol) : Option (List Symbol) :=
  word [','] symbols

end

end Reader

/-- The value that the symbols spell out, with nothing but white space around it. -/
def ofSymbols (symbols : List Symbol) : Option Json := do
  let (v, rest) ← Reader.value (2 * symbols.length + 2) (Reader.skipSpace symbols)
  if (Reader.skipSpace rest).isEmpty then some v else none

/-- The value that a text spells out. -/
def ofText (s : String) : Option Json :=
  ofSymbols (symbolsOfText s)

/-- The value that a byte sequence spells out. -/
def ofBytes (bytes : Bytes) : Option Json :=
  ofSymbols (symbolsOfBytes bytes)

end DocPipeline.Json
