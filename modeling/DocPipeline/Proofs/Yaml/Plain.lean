import DocPipeline.Proofs.Yaml.Character

/-! Plain scalars read back. A text that is written plainly stays whole up to the end of its line,
and the next line is not indented enough to go on with it.
-/

namespace DocPipeline.Yaml.Scalar

open Writer

variable {flow : Bool} {margin : Nat} {start mark : Mark} {text : List Char} {gap : Gap}

theorem plainFrom_break {c : Char} (ends : isBreak c = true) (single : c ≠ '\r')
    (rest : List Char)
    : plainFrom flow margin start text gap (c :: rest) mark
      = plainFrom flow margin start text (gap.addBreak c) rest (mark.nextLine 1) := by
  rw [plainFrom, if_pos ends]
  exact fun _ same _ => single same

theorem plainFrom_space (rest : List Char)
    : plainFrom flow margin start text gap (' ' :: rest) mark
      = plainFrom flow margin start text (gap.addSpace ' ') rest (mark.advance 1) := by
  rw [plainFrom]
  · simp [isBreak, isSpacing]
  · exact fun _ same _ => absurd same (by decide)

/-- A character of a word becomes part of the text, with the white space before it. -/
theorem plainFrom_word {c : Char} {rest : List Char} (stays : isBreak c = false)
    (solid : isSpacing c = false)
    (goesOn : gap.isNone = true ∨ endsPlainLine false margin mark c rest = false)
    (notKey : (c == ':' && endsWord rest) = false)
    : plainFrom false margin start text gap (c :: rest) mark
      = plainFrom false margin start (c :: gap.appendTo text) .none rest (mark.advance 1) := by
  rw [plainFrom]
  · have inLine : (!gap.isNone && endsPlainLine false margin mark c rest) = false := by
      rcases goesOn with none | same
      · rw [none, Bool.not_true, Bool.false_and]
      · rw [same, Bool.and_false]
    simp [stays, solid, inLine, endsPlain, notKey]
  · rintro _ rfl _
    cases stays

-----------------------------------------------------------------------------------------
-- Behind the text
-----------------------------------------------------------------------------------------

/-- On a later line indentation counts for nothing. -/
theorem plainFrom_indentation (later : gap.broken = true) (n : Nat) (rest : List Char)
    : plainFrom flow margin start text gap (spaces n ++ rest) mark
      = plainFrom flow margin start text gap rest (mark.advance n) := by
  induction n generalizing mark with
  | zero => rfl
  | succ n ih =>
      have same : gap.addSpace ' ' = gap := by
        rw [Gap.addSpace, if_pos later]
      rw [spaces_succ, List.cons_append, plainFrom_space, same, ih, Mark.advance_advance,
        Nat.add_comm]

/-- A line that is indented too little ends the scalar, as the end of the text does. -/
theorem plainFrom_content {column : Nat} {line : List Char} (later : gap.broken = true)
    (content : IsContent column line) (place : mark.column = column) (outside : column < margin)
    : plainFrom false margin start text gap line mark
      = .ok (text.reverse, true, ⟨line, mark⟩) := by
  cases line with
  | nil => rw [plainFrom, later]
  | cons c rest =>
      obtain ⟨solid, stays, _, _⟩ := content
      have left : (!gap.isNone && endsPlainLine false margin mark c rest) = true := by
        simp [Gap.isNone, later, endsPlainLine, place, outside]
      rw [plainFrom]
      · simp [stays, solid, left, later]
      · rintro _ rfl _
        cases stays

/-- Behind the last word the scalar ends with its line. -/
theorem plainFrom_end {column : Nat} {line : List Char} (content : IsContent column line)
    (outside : column < margin)
    : plainFrom false margin start text .none ('\n' :: (spaces column ++ line)) mark
      = .ok (text.reverse, true, ⟨line, (mark.nextLine 1).advance column⟩) := by
  rw [plainFrom_break (by decide) (by decide), plainFrom_indentation (by rfl)]
  exact plainFrom_content rfl content (Nat.zero_add column) outside

-----------------------------------------------------------------------------------------
-- The whole text
-----------------------------------------------------------------------------------------

/-- What is left of a plain text is read to the end of the line, with the spaces before it. By
induction on what is left: a space is kept in the gap, and any other character closes the gap.
-/
theorem plainFrom_text {before : Char} {cs line : List Char} {column : Nat} (mark : Mark)
    (text sp : List Char) (content : IsContent column line) (outside : column < margin)
    (wide : margin ≤ mark.column)
    (spaced : sp ≠ [] → before = ' ') (solidEnd : (before :: cs).getLast? ≠ some ' ')
    (printable : ∀ c ∈ cs, isPrintable c = true) (oneLine : ∀ c ∈ cs, isBreak c = false)
    (quiet : interrupted before cs = false)
    : ∃ place : Mark, place.column = column ∧ place.line = mark.line + 1
      ∧ plainFrom false margin start text ⟨false, sp, [], []⟩
          (cs ++ '\n' :: (spaces column ++ line)) mark
        = .ok (text.reverse ++ sp.reverse ++ cs, true, ⟨line, place⟩) := by
  induction cs generalizing before mark text sp with
  | nil =>
      have none : sp = [] := by
        cases sp with
        | nil => rfl
        | cons d sp => exact absurd (congrArg some (spaced (List.cons_ne_nil d sp))) solidEnd
      subst none
      refine ⟨(mark.nextLine 1).advance column, Nat.zero_add column, rfl, ?_⟩
      have read := @plainFrom_end margin start mark text column line content outside
      rw [List.nil_append, List.append_nil, List.reverse_nil, List.append_nil]
      exact read
  | cons c cs ih =>
      have ends : (c :: cs).getLast? ≠ some ' ' := by
        rwa [List.getLast?_cons_cons] at solidEnd
      obtain ⟨printableFirst, printableRest⟩ := List.forall_mem_cons.mp printable
      obtain ⟨stays, oneLineRest⟩ := List.forall_mem_cons.mp oneLine
      rw [interrupted, Bool.or_eq_false_iff, Bool.or_eq_false_iff] at quiet
      obtain ⟨⟨notKey, notComment⟩, quietRest⟩ := quiet
      by_cases space : c = ' '
      · subst space
        obtain ⟨place, col, next, read⟩ := ih (mark.advance 1) text (' ' :: sp)
          (Nat.le_add_right_of_le wide) (fun _ => rfl) ends printableRest oneLineRest quietRest
        refine ⟨place, col, next, ?_⟩
        rw [List.cons_append, plainFrom_space]
        simpa [Gap.addSpace] using read
      · have solid : isSpacing c = false := by
          rw [isSpacing_of_isPrintable printableFirst, beq_eq_false_iff_ne]
          exact space
        obtain ⟨place, col, next, read⟩ := ih (mark.advance 1) (c :: (sp ++ text)) []
          (Nat.le_add_right_of_le wide) (fun none => absurd rfl none) ends printableRest
          oneLineRest quietRest
        refine ⟨place, col, next, ?_⟩
        rw [List.cons_append, plainFrom_word stays solid _ _]
        · simpa [Gap.appendTo, Gap.text, Gap.none] using read
        · cases sp with
          | nil => exact .inl rfl
          | cons d sp =>
              rw [spaced (List.cons_ne_nil d sp)] at notComment
              have noComment : (c == '#') = false := by simpa [isSpacing] using notComment
              have inside : 0 < mark.column := by omega
              refine .inr ?_
              simp [endsPlainLine, isSeparator_of_pos inside, noComment, wide]
        · rw [endsWord_append cs _ (by decide)]
          exact notKey

-----------------------------------------------------------------------------------------
-- Texts that are written plainly
-----------------------------------------------------------------------------------------

/-- What it takes for a text to be written plainly. -/
structure IsPlainText (s : String) (c : Char) (cs : List Char) : Prop where
  parts : s.toList = c :: cs
  meansItself : Meaning.ofText s = .text
  beginsWell : startsBadly c cs = false
  quiet : interrupted c cs = false
  printable : ∀ d ∈ c :: cs, isPrintable d = true
  oneLine : ∀ d ∈ c :: cs, isBreak d = false
  solidStart : c ≠ ' '
  solidEnd : (c :: cs).getLast? ≠ some ' '

theorem isPlainText_of_form {s : String} (form : formOf s = .plain)
    : ∃ c cs, IsPlainText s c cs := by
  have fits := formOf_fits s
  rw [form] at fits
  obtain ⟨clear, allowed⟩ := fits
  simp only [isAmbiguous, Bool.or_eq_false_iff, bne_eq_false_iff_eq] at clear
  simp only [plainAllowed, needsEscapes, Bool.and_eq_true, Bool.not_eq_true', Bool.or_eq_false_iff,
    List.any_eq_false] at allowed
  obtain ⟨⟨⟨outer, oneLine⟩, printable, _⟩, indicators⟩ := allowed
  cases parts : s.toList with
  | nil =>
      rw [String.toList_eq_nil_iff.mp parts] at clear
      exact absurd clear.1 (by decide)
  | cons c cs =>
      rw [parts] at outer oneLine printable indicators
      have well : startsBadly c cs = false ∧ interrupted c cs = false := by
        unfold hasIndicators at indicators
        split at indicators
        · cases indicators
        · cases indicators
        next same =>
          obtain ⟨rfl, rfl⟩ := List.cons.inj same
          simpa using indicators
        next same => cases same
      simp only [hasOuterSpace, List.head?_cons, Option.any_some, Bool.or_eq_false_iff,
        beq_eq_false_iff_ne] at outer
      refine ⟨c, cs, parts, clear.1, well.1, well.2, ?_, ?_, outer.1.1, fun last => ?_⟩
      · simpa using printable
      · simpa using oneLine
      · rw [last] at outer
        simp at outer

/-- A text that is written plainly is read back with the rest of its line. -/
theorem plain_of_form {s : String} {cursor : Cursor} {line : List Char} {column : Nat}
    (form : formOf s = .plain)
    (written : cursor.rest = s.toList ++ '\n' :: (spaces column ++ line))
    (content : IsContent column line) (outside : column < margin)
    (wide : margin ≤ cursor.mark.column)
    : ∃ place : Mark, place.column = column ∧ place.line = cursor.mark.line + 1
      ∧ plain false margin cursor = .ok (s.toList, true, ⟨line, place⟩) := by
  obtain ⟨c, cs, known⟩ := isPlainText_of_form form
  obtain ⟨printable, printableRest⟩ := List.forall_mem_cons.mp known.printable
  obtain ⟨stays, oneLineRest⟩ := List.forall_mem_cons.mp known.oneLine
  have solid : isSpacing c = false := by
    rw [isSpacing_of_isPrintable printable, beq_eq_false_iff_ne]
    exact known.solidStart
  have notKey : (c == ':' && endsWord (cs ++ '\n' :: (spaces column ++ line))) = false := by
    have begins := known.beginsWell
    rw [endsWord_append cs _ (by decide)]
    by_cases colon : c = ':'
    · subst colon
      simpa [startsBadly] using begins
    · simp [colon]
  obtain ⟨place, col, next, read⟩ := plainFrom_text
    (cursor.mark.advance 1) [c] [] content outside (Nat.le_add_right_of_le wide)
    (fun none => absurd rfl none) known.solidEnd printableRest oneLineRest known.quiet
  refine ⟨place, col, next, ?_⟩
  rw [plain, written, known.parts, List.cons_append, plainFrom_word stays solid (.inl rfl) notKey]
  exact read

-----------------------------------------------------------------------------------------
-- Keys
-----------------------------------------------------------------------------------------

/-- A key stands before its colon. By induction on the key, whose characters all belong to the one
word that it is.
-/
theorem plainFrom_key {key rest : List Char} (text : List Char) (mark : Mark)
    (plain : ∀ c ∈ key, isKeyChar c = true) (behind : endsWord rest = true)
    : plainFrom false margin start text .none (key ++ ':' :: rest) mark
      = .ok (text.reverse ++ key, false, ⟨':' :: rest, mark.advance key.length⟩) := by
  induction key generalizing text mark with
  | nil =>
      rw [List.nil_append, plainFrom]
      · simp [isBreak, isSpacing, Gap.isNone, Gap.none, endsPlain, behind, Mark.advance]
      · exact fun _ same _ => absurd same (by decide)
  | cons c key ih =>
      obtain ⟨first, others⟩ := List.forall_mem_cons.mp plain
      have notColon : (c == ':') = false := by
        rw [beq_eq_false_iff_ne]
        exact ne_of_isKeyChar first (by decide)
      rw [List.cons_append,
        plainFrom_word (isBreak_of_isKeyChar first) (isSpacing_of_isKeyChar first)
        (.inl rfl) (by rw [notColon, Bool.false_and]), ih _ _ others, Mark.advance_advance,
        Nat.add_comm]
      simp [Gap.appendTo, Gap.text, Gap.none]

theorem plain_of_isKey {key rest : List Char} {cursor : Cursor} (known : IsKey key)
    (behind : endsWord rest = true) (written : cursor.rest = key ++ ':' :: rest)
    : plain false margin cursor
      = .ok (key, false, ⟨':' :: rest, cursor.mark.advance key.length⟩) := by
  rw [plain, written, plainFrom_key [] _ known.plain behind]
  rfl

end DocPipeline.Yaml.Scalar
