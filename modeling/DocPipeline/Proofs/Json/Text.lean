import DocPipeline.Json.Reader
import DocPipeline.Json.Writer

/-! Strings of JSON read back. The writer has three forms for a character: the character itself, a
letter behind a backslash, and a number. The reader takes each of them for that character, whatever
stands behind it.
-/

namespace DocPipeline.Json

open Reader (stringFrom)

/-- A string with the characters read so far, the last one first. -/
def readSoFar (back : List Char) : Reader.Partial :=
  ⟨some back, none⟩

variable (back : List Char) (rest : List Symbol)

theorem stringFrom_plain {c : Char} (quote : c ≠ '"') (backslash : c ≠ '\\')
    (noControl : ¬c.toNat < 0x20)
    : stringFrom (readSoFar back) .outside (some c :: rest)
      = stringFrom (readSoFar (c :: back)) .outside rest := by
  simp only [stringFrom, beq_iff_eq, if_neg quote, if_neg backslash, if_neg noControl]
  rfl

theorem stringFrom_short {letter c : Char} (known : Reader.shortEscape? letter = some c)
    (short : letter ≠ 'u')
    : stringFrom (readSoFar back) .outside (some '\\' :: some letter :: rest)
      = stringFrom (readSoFar (c :: back)) .outside rest := by
  have opened : stringFrom (readSoFar back) .outside (some '\\' :: some letter :: rest)
      = stringFrom (readSoFar back) .opened (some letter :: rest) := rfl
  rw [opened]
  simp only [stringFrom, beq_iff_eq, if_neg short, known]
  rfl

/-- A digit of the writer is one of the reader, by looking at all sixteen. -/
theorem hexDigit?_hexDigit {n : Nat} (small : n < 16)
    : Reader.hexDigit? (Writer.hexDigit n) = some n := by
  revert n
  decide

/-- A control is read back from its number: its two digits stand for it, and it is no half of a
pair.
-/
theorem stringFrom_number {c : Char} (control : c.toNat < 0x20)
    : stringFrom (readSoFar back) .outside
        (some '\\' :: some 'u' :: some '0' :: some '0'
          :: some (Writer.hexDigit (c.toNat / 16)) :: some (Writer.hexDigit (c.toNat % 16))
          :: rest)
      = stringFrom (readSoFar (c :: back)) .outside rest := by
  have high := hexDigit?_hexDigit (show c.toNat / 16 < 16 by omega)
  have low := hexDigit?_hexDigit (show c.toNat % 16 < 16 by omega)
  have zero : Reader.hexDigit? '0' = some 0 := by decide
  have value : ((0 * 16 + 0) * 16 + c.toNat / 16) * 16 + c.toNat % 16 = c.toNat := by omega
  have unit : (readSoFar back).addUnit c.toNat = readSoFar (c :: back) := by
    have noHigh : (0xD800 ≤ c.toNat && c.toNat < 0xDC00) = false := by
      rw [Bool.and_eq_false_iff]
      exact .inl (decide_eq_false (by omega))
    have noLow : (0xDC00 ≤ c.toNat && c.toNat < 0xE000) = false := by
      rw [Bool.and_eq_false_iff]
      exact .inl (decide_eq_false (by omega))
    simp only [Reader.Partial.addUnit, noHigh, noLow, Bool.false_eq_true, if_false,
      Char.ofNat_toNat]
    rfl
  have opened : stringFrom (readSoFar back) .outside
        (some '\\' :: some 'u' :: some '0' :: some '0'
          :: some (Writer.hexDigit (c.toNat / 16)) :: some (Writer.hexDigit (c.toNat % 16))
          :: rest)
      = stringFrom (readSoFar back) (.digits 4 0)
        (some '0' :: some '0' :: some (Writer.hexDigit (c.toNat / 16))
          :: some (Writer.hexDigit (c.toNat % 16)) :: rest) := rfl
  rw [opened]
  simp only [stringFrom, Option.bind_some, zero, high, low, value, unit]
  rfl

/-- Every character is read back from its written form, by cases on that form. -/
theorem stringFrom_char (c : Char)
    : stringFrom (readSoFar back) .outside ((Writer.char c).map some ++ rest)
      = stringFrom (readSoFar (c :: back)) .outside rest := by
  unfold Writer.char
  by_cases quote : c = '"'
  · rw [if_pos quote, quote]
    exact stringFrom_short back rest rfl (by decide)
  by_cases backslash : c = '\\'
  · rw [if_neg quote, if_pos backslash, backslash]
    exact stringFrom_short back rest rfl (by decide)
  rw [if_neg quote, if_neg backslash]
  by_cases b : c = '\x08'
  · rw [if_pos b, b]
    exact stringFrom_short back rest rfl (by decide)
  by_cases f : c = '\x0c'
  · rw [if_neg b, if_pos f, f]
    exact stringFrom_short back rest rfl (by decide)
  by_cases n : c = '\n'
  · rw [if_neg b, if_neg f, if_pos n, n]
    exact stringFrom_short back rest rfl (by decide)
  by_cases r : c = '\r'
  · rw [if_neg b, if_neg f, if_neg n, if_pos r, r]
    exact stringFrom_short back rest rfl (by decide)
  by_cases t : c = '\t'
  · rw [if_neg b, if_neg f, if_neg n, if_neg r, if_pos t, t]
    exact stringFrom_short back rest rfl (by decide)
  rw [if_neg b, if_neg f, if_neg n, if_neg r, if_neg t]
  by_cases control : c.toNat < 0x20
  · rw [if_pos control]
    exact stringFrom_number back rest control
  · rw [if_neg control]
    exact stringFrom_plain back rest quote backslash control

/-- A text is read back from its written form to the closing quote, by induction on the text. -/
theorem stringFrom_text (cs : List Char)
    : stringFrom (readSoFar back) .outside ((cs.flatMap Writer.char).map some ++ some '"' :: rest)
      = some (some (String.ofList (back.reverse ++ cs)), rest) := by
  induction cs generalizing back with
  | nil =>
      rw [List.append_nil]
      rfl
  | cons c cs ih =>
      rw [List.flatMap_cons, List.map_append, List.append_assoc, stringFrom_char, ih,
        List.reverse_cons, List.append_assoc]
      rfl

/-- Behind its opening quote, a written text is read back. -/
theorem string_text (s : String)
    : Reader.string ((s.toList.flatMap Writer.char ++ ['"']).map some ++ rest)
      = some (some s, rest) := by
  have read := stringFrom_text [] rest s.toList
  rw [List.map_append, List.append_assoc]
  rwa [List.reverse_nil, List.nil_append, String.ofList_toList] at read

end DocPipeline.Json
