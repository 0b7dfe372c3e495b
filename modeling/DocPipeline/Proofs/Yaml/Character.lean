import DocPipeline.Yaml.Writer

/-! Characters of written documents. What can stand for itself can also be read: it is no tab, and
the only breaks among such characters are those that reading keeps.
-/

namespace DocPipeline.Yaml

open Writer

theorem ne_of_isPrintable {c d : Char} (printable : isPrintable c = true)
    (other : isPrintable d = false) : c ≠ d := by
  rintro rfl
  rw [printable] at other
  cases other

/-- Every character that is written for itself may stand in a document; by comparing the ranges. -/
theorem isAllowed_of_isPrintable {c : Char} (printable : isPrintable c = true)
    : isAllowed c = true := by
  simp only [isPrintable, isAllowed, Bool.or_eq_true, Bool.and_eq_true, beq_iff_eq,
    decide_eq_true_eq] at printable ⊢
  omega

/-- Carriage returns and next lines are escaped, so a break that is written for itself is kept. -/
theorem foldedBreak_of_isPrintable {c : Char} (printable : isPrintable c = true)
    (ends : isBreak c = true) : foldedBreak c = c := by
  simp only [isBreak, Bool.or_eq_true, beq_iff_eq] at ends
  rcases ends with (((rfl | rfl) | rfl) | rfl) | rfl
  · rfl
  · exact absurd rfl (ne_of_isPrintable printable (by decide))
  · exact absurd rfl (ne_of_isPrintable printable (by decide))
  · rfl
  · rfl

theorem isSpacing_of_isPrintable {c : Char} (printable : isPrintable c = true)
    : isSpacing c = (c == ' ') := by
  have noTab : c ≠ '\t' := ne_of_isPrintable printable (by decide)
  simp [isSpacing, noTab]

/-- What a form promises of the text for which it is chosen. -/
def Writer.Form.Fits (s : String) : Form → Prop
  | plain => isAmbiguous s = false ∧ plainAllowed s.toList = true
  | single => '\n' ∉ s.toList ∧ singleAllowed s.toList = true
  | double => True
  | block => blockAllowed s.toList = true

theorem formOf_fits (s : String) : (formOf s).Fits s := by
  unfold formOf
  dsimp only
  split
  next =>
    split
    next allowed => exact allowed
    next => trivial
  next oneLine =>
    split
    next both => simpa [Form.Fits] using both
    next =>
      split
      next allowed => exact ⟨by simpa using oneLine, allowed⟩
      next => trivial

/-- Only between double quotes a character may have no picture. -/
theorem isPrintable_of_formOf {s : String} (noEscapes : formOf s ≠ .double)
    : ∀ c ∈ s.toList, isPrintable c = true := by
  have fits := formOf_fits s
  have whole : needsEscapes s.toList = false := by
    cases form : formOf s with
    | double => exact absurd form noEscapes
    | plain =>
        rw [form] at fits
        simp_all [Form.Fits, plainAllowed]
    | single =>
        rw [form] at fits
        simp_all [Form.Fits, singleAllowed]
    | block =>
        rw [form] at fits
        simp_all [Form.Fits, blockAllowed]
  rw [needsEscapes, Bool.or_eq_false_iff] at whole
  simpa using whole.1

/-- The first character of what comes next, behind so many spaces: neither white space nor a
comment. At the end of the text nothing stands before it.
-/
def IsContent (column : Nat) : List Char → Prop
  | [] => column = 0
  | c :: _ => isSpacing c = false ∧ isBreak c = false ∧ c ≠ '#' ∧ c ≠ '\uFEFF'

/-- Only a line in the first column separates documents. -/
theorem isSeparator_of_pos {mark : Mark} (inside : 0 < mark.column) (cs : List Char)
    : isSeparator mark cs = false := by
  have notFirst : (mark.column == 0) = false := by
    rw [beq_eq_false_iff_ne]
    omega
  unfold isSeparator
  rw [notFirst, Bool.false_and]

/-- Only hyphens and points separate documents. -/
theorem isSeparator_of_ne {c : Char} (noHyphen : c ≠ '-') (noPoint : c ≠ '.') (mark : Mark)
    (rest : List Char) : isSeparator mark (c :: rest) = false := by
  unfold isSeparator
  split
  next same => exact absurd (List.cons.inj same).1 noHyphen
  next same => exact absurd (List.cons.inj same).1 noPoint
  next => exact Bool.and_false _

theorem spaces_succ (n : Nat) : spaces (n + 1) = ' ' :: spaces n :=
  List.replicate_succ

/-- A word ends at the same place with more behind the line as without. -/
theorem endsWord_append {ends : Char} (cs rest : List Char) (line : isBreak ends = true)
    : endsWord (cs ++ ends :: rest) = endsWord cs := by
  cases cs with
  | nil => simp [endsWord, line]
  | cons c cs => rfl

theorem adjacent_tail {p q : Char → Bool} {c : Char} {cs : List Char}
    (apart : adjacent p q (c :: cs) = false) : adjacent p q cs = false := by
  cases cs with
  | nil => rfl
  | cons d cs =>
      rw [adjacent, Bool.or_eq_false_iff] at apart
      exact apart.2

/-- Behind a character of the one kind there is none of the other. -/
theorem head_of_adjacent {p q : Char → Bool} {c : Char} {cs : List Char}
    (apart : adjacent p q (c :: cs) = false) (first : p c = true)
    : ∀ d ∈ cs.head?, q d = false := by
  intro d member
  cases cs with
  | nil => cases member
  | cons e cs =>
      rw [adjacent, Bool.or_eq_false_iff, first, Bool.true_and] at apart
      exact Option.some.inj member ▸ apart.1

theorem Mark.advance_advance (mark : Mark) (m n : Nat)
    : (mark.advance m).advance n = mark.advance (m + n) := by
  simp [Mark.advance, Nat.add_assoc]

/-- A letter, a digit or an underscore. -/
def isKeyChar (c : Char) : Bool :=
  c.isAlphanum || c == '_'

/-- The text can be written as the key of a field, and is recognized as one. -/
structure IsKey (key : List Char) : Prop where
  nonempty : key ≠ []
  short : key.length ≤ Scanner.longestKey
  plain : ∀ c ∈ key, isKeyChar c = true

theorem IsKey.of_all {key : List Char}
    (fits : (!key.isEmpty && decide (key.length ≤ Scanner.longestKey) && key.all isKeyChar) = true)
    : IsKey key := by
  rw [Bool.and_eq_true, Bool.and_eq_true, Bool.not_eq_true', List.isEmpty_eq_false_iff,
    decide_eq_true_eq, List.all_eq_true] at fits
  obtain ⟨⟨nonempty, short⟩, plain⟩ := fits
  exact ⟨nonempty, short, plain⟩

theorem ne_of_isKeyChar {c d : Char} (plain : isKeyChar c = true) (other : isKeyChar d = false)
    : c ≠ d := by
  rintro rfl
  rw [plain] at other
  cases other

theorem isBreak_of_isKeyChar {c : Char} (plain : isKeyChar c = true) : isBreak c = false := by
  simp (disch := decide) [isBreak, fun d => @ne_of_isKeyChar c d plain]

theorem isSpacing_of_isKeyChar {c : Char} (plain : isKeyChar c = true) : isSpacing c = false := by
  simp (disch := decide) [isSpacing, fun d => @ne_of_isKeyChar c d plain]

theorem isAllowed_of_isKeyChar {c : Char} (plain : isKeyChar c = true) : isAllowed c = true := by
  delta isKeyChar Char.isAlphanum Char.isAlpha Char.isUpper Char.isLower Char.isDigit at plain
  simp only [Bool.or_eq_true, Bool.and_eq_true, decide_eq_true_eq, beq_iff_eq, ge_iff_le,
    UInt32.le_iff_toNat_le] at plain
  have range : 0x20 ≤ c.toNat ∧ c.toNat ≤ 0x7E := by
    rcases plain with ((upper | lower) | digit) | rfl
    · exact ⟨Nat.le_trans (by decide) upper.1, Nat.le_trans upper.2 (by decide)⟩
    · exact ⟨Nat.le_trans (by decide) lower.1, Nat.le_trans lower.2 (by decide)⟩
    · exact ⟨Nat.le_trans (by decide) digit.1, Nat.le_trans digit.2 (by decide)⟩
    · decide
  simp [isAllowed, range]

theorem isIndicator_of_isKeyChar {c : Char} (plain : isKeyChar c = true)
    : Scanner.isIndicator c = false := by
  simp (disch := decide) [Scanner.isIndicator, fun d => @ne_of_isKeyChar c d plain]

end DocPipeline.Yaml
