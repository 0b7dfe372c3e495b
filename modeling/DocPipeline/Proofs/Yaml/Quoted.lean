import DocPipeline.Proofs.Yaml.Character

/-! Scalars in quotes read back. In single quotes the breaks that are left are kept, and the
indentation behind them is dropped again. In double quotes every escape stands for its character.
-/

namespace DocPipeline.Yaml.Scalar

open Writer (isPrintable adjacent spaces doubleChar escaped hexDigits formOf)

variable {start mark : Mark} {text : List Char} {gap : Gap}

-----------------------------------------------------------------------------------------
-- White space
-----------------------------------------------------------------------------------------

/-- A first break that is no newline does not fold away. -/
def Gap.Keeps (gap : Gap) : Prop :=
  gap.broken = true → gap.first ≠ ['\n']

theorem Gap.addBreak_broken (c : Char) : (gap.addBreak c).broken = true := by
  unfold addBreak
  split
  next later => exact later
  next => rfl

/-- A break that is kept adds itself to the white space, if no spaces stand before it. -/
theorem Gap.text_addBreak {c : Char} (keeps : gap.Keeps)
    (tight : gap.broken = false → gap.spaces = []) (kept : foldedBreak c = c) (other : c ≠ '\n')
    : (gap.addBreak c).text = gap.text ++ [c] ∧ (gap.addBreak c).Keeps := by
  cases later : gap.broken with
  | false =>
      simp [addBreak, later, text, tight later, kept, Keeps, other]
  | true =>
      simp [addBreak, later, text, keeps later, kept, Keeps]

theorem Gap.text_addSpace (sameLine : gap.broken = false)
    : (gap.addSpace ' ').text = gap.text ++ [' '] ∧ (gap.addSpace ' ').broken = false := by
  simp [addSpace, text, sameLine]

theorem Gap.reverse_appendTo (cs : List Char)
    : (gap.appendTo cs).reverse = cs.reverse ++ gap.text := by
  simp [appendTo]

-----------------------------------------------------------------------------------------
-- Single quotes
-----------------------------------------------------------------------------------------

theorem singleFrom_break {c : Char} (ends : isBreak c = true) (single : c ≠ '\r')
    (rest : List Char)
    : singleFrom start text gap (c :: rest) mark
      = singleFrom start text (gap.addBreak c) rest (mark.nextLine 1) := by
  rw [singleFrom, if_pos ends]
  · exact fun _ same _ => single same
  · rintro _ rfl _
    cases ends

theorem singleFrom_space (rest : List Char)
    : singleFrom start text gap (' ' :: rest) mark
      = singleFrom start text (gap.addSpace ' ') rest (mark.advance 1) := by
  rw [singleFrom]
  · simp [isBreak, isSpacing]
  · exact fun _ same _ => absurd same (by decide)
  · exact fun _ same _ => absurd same (by decide)

/-- A quote that is written twice stands for one. -/
theorem singleFrom_quote (rest : List Char)
    : singleFrom start text gap ('\'' :: '\'' :: rest) mark
      = singleFrom start ('\'' :: gap.appendTo text) .none rest (mark.advance 2) := by
  rw [singleFrom]

theorem singleFrom_word {c : Char} (stays : isBreak c = false) (solid : isSpacing c = false)
    (noQuote : c ≠ '\'') (inside : 0 < mark.column) (rest : List Char)
    : singleFrom start text gap (c :: rest) mark
      = singleFrom start (c :: gap.appendTo text) .none rest (mark.advance 1) := by
  rw [singleFrom]
  · simp [stays, solid, isSeparator_of_pos inside, noQuote]
  · rintro _ rfl _
    cases stays
  · exact fun _ same _ => noQuote same

/-- A character that is no white space closes the gap, however it is written. -/
theorem singleFrom_solid {c : Char} (stays : isBreak c = false) (solid : isSpacing c = false)
    (inside : 0 < mark.column) (rest : List Char)
    : ∃ place : Mark, 0 < place.column ∧ place.line = mark.line
      ∧ singleFrom start text gap ((if c == '\'' then ['\'', '\''] else [c]) ++ rest) mark
        = singleFrom start (c :: gap.appendTo text) .none rest place := by
  by_cases quote : c = '\''
  · subst quote
    exact ⟨mark.advance 2, Nat.succ_pos _, rfl, singleFrom_quote rest⟩
  · rw [if_neg (by simpa using quote)]
    exact ⟨mark.advance 1, Nat.succ_pos _, rfl, singleFrom_word stays solid quote inside rest⟩

/-- A quote that is not written twice is the last one. -/
theorem singleFrom_end {c : Char} (last : c ≠ '\'') (inside : 0 < mark.column) (rest : List Char)
    : singleFrom start text gap ('\'' :: c :: rest) mark
      = .ok ((gap.appendTo text).reverse, ⟨c :: rest, mark.advance 1⟩) := by
  rw [singleFrom]
  · simp [isBreak, isSpacing, isSeparator_of_pos inside]
  · exact fun _ same _ => absurd same (by decide)
  · exact fun _ _ same => last (List.cons.inj same).1

/-- Behind a break indentation counts for nothing. -/
theorem singleFrom_indentation (later : gap.broken = true) (n : Nat) (rest : List Char)
    : singleFrom start text gap (spaces n ++ rest) mark
      = singleFrom start text gap rest (mark.advance n) := by
  induction n generalizing mark with
  | zero => rfl
  | succ n ih =>
      have same : gap.addSpace ' ' = gap := by
        rw [Gap.addSpace, if_pos later]
      rw [spaces_succ, List.cons_append, singleFrom_space, same, ih, Mark.advance_advance,
        Nat.add_comm]

/-- What is written before a character behind a break is dropped again. -/
theorem singleFrom_fresh {indent : Nat} (indented : 0 < indent)
    (inside : gap.broken = false → 0 < mark.column) (rest : List Char)
    : ∃ place : Mark, 0 < place.column ∧ place.line = mark.line
      ∧ singleFrom start text gap ((if gap.broken then spaces indent else []) ++ rest) mark
        = singleFrom start text gap rest place := by
  cases later : gap.broken with
  | false => exact ⟨mark, inside later, rfl, rfl⟩
  | true =>
      exact ⟨mark.advance indent, Nat.add_pos_right _ indented, rfl,
        singleFrom_indentation later indent rest⟩

/-- What single quotes can hold, from some character on: printable characters without newlines, and
no space next to a break.
-/
structure IsSingleText (cs : List Char) : Prop where
  printable : ∀ c ∈ cs, isPrintable c = true
  noNewline : ∀ c ∈ cs, c ≠ '\n'
  noSpaceBefore : adjacent (· == ' ') isBreak cs = false
  noSpaceBehind : adjacent isBreak (· == ' ') cs = false

theorem IsSingleText.tail {c : Char} {cs : List Char} (fit : IsSingleText (c :: cs))
    : IsSingleText cs where
  printable := (List.forall_mem_cons.mp fit.printable).2
  noNewline := (List.forall_mem_cons.mp fit.noNewline).2
  noSpaceBefore := adjacent_tail fit.noSpaceBefore
  noSpaceBehind := adjacent_tail fit.noSpaceBehind

/-- What is left of a text in single quotes is read up to the closing quote, with the white space
before it. By induction on what is left: a space or a break is kept in the gap, and any other
character closes the gap, behind the indentation if that is there.
-/
theorem singleFrom_text {indent : Nat} {cs rest : List Char} {c : Char} (gap : Gap) (mark : Mark)
    (text : List Char) (indented : 0 < indent) (last : c ≠ '\'') (fit : IsSingleText cs)
    (keeps : gap.Keeps) (inside : gap.broken = false → 0 < mark.column)
    (noBreak : gap.broken = false → gap.spaces ≠ [] → ∀ d ∈ cs.head?, isBreak d = false)
    (noSpace : gap.broken = true → ∀ d ∈ cs.head?, (d == ' ') = false)
    : ∃ place : Mark, mark.line ≤ place.line
      ∧ singleFrom start text gap
          (Writer.singleFrom indent gap.broken cs ++ '\'' :: c :: rest) mark
        = .ok (text.reverse ++ gap.text ++ cs, ⟨c :: rest, place⟩) := by
  induction cs generalizing gap mark text with
  | nil =>
      obtain ⟨place, within, line, read⟩ := @singleFrom_fresh start mark text gap indent indented
        inside ('\'' :: c :: rest)
      refine ⟨place.advance 1, Nat.le_of_eq line.symm, ?_⟩
      rw [Writer.singleFrom, read, singleFrom_end last within, Gap.reverse_appendTo,
        List.append_nil]
  | cons d cs ih =>
      have printable := fit.printable d List.mem_cons_self
      by_cases ends : isBreak d = true
      · have tight : gap.broken = false → gap.spaces = [] := by
          intro sameLine
          by_cases none : gap.spaces = []
          · exact none
          · exact absurd ends (by rw [noBreak sameLine none d rfl]; decide)
        obtain ⟨textEq, keepsToo⟩ := gap.text_addBreak keeps tight
          (foldedBreak_of_isPrintable printable ends) (fit.noNewline d List.mem_cons_self)
        have later := gap.addBreak_broken d
        obtain ⟨place, line, read⟩ := ih (gap.addBreak d) (mark.nextLine 1) text fit.tail keepsToo
          (fun same => absurd (same.symm.trans later) (by decide))
          (fun same => absurd (same.symm.trans later) (by decide))
          fun _ => head_of_adjacent fit.noSpaceBehind ends
        refine ⟨place, Nat.le_of_succ_le line, ?_⟩
        rw [Writer.singleFrom, if_pos ends, List.cons_append,
          singleFrom_break ends (ne_of_isPrintable printable (by decide))]
        rw [later] at read
        rw [read, textEq]
        simp
      · rw [Bool.not_eq_true] at ends
        by_cases space : d = ' '
        · subst space
          have sameLine : gap.broken = false := by
            cases later : gap.broken with
            | false => rfl
            | true => exact absurd (noSpace later ' ' rfl) (by decide)
          obtain ⟨textEq, still⟩ := Gap.text_addSpace sameLine
          obtain ⟨place, line, read⟩ := ih (gap.addSpace ' ') (mark.advance 1) text fit.tail
            (fun later => absurd (still.symm.trans later) (by decide))
            (fun _ => Nat.succ_pos _) (fun _ _ => head_of_adjacent fit.noSpaceBefore rfl)
            (fun later => absurd (still.symm.trans later) (by decide))
          refine ⟨place, line, ?_⟩
          rw [still] at read
          simpa [Writer.singleFrom, ends, sameLine, singleFrom_space, textEq] using read
        · have solid : isSpacing d = false := by
            rw [isSpacing_of_isPrintable printable, beq_eq_false_iff_ne]
            exact space
          have split : Writer.singleFrom indent gap.broken (d :: cs) ++ '\'' :: c :: rest
              = (if gap.broken then spaces indent else [])
                ++ ((if d == '\'' then ['\'', '\''] else [d])
                  ++ (Writer.singleFrom indent false cs ++ '\'' :: c :: rest)) := by
            simp [Writer.singleFrom, ends]
          obtain ⟨front, within, frontLine, begins⟩ := @singleFrom_fresh start mark text gap indent
            indented inside ((if d == '\'' then ['\'', '\''] else [d])
              ++ (Writer.singleFrom indent false cs ++ '\'' :: c :: rest))
          obtain ⟨behind, beyond, behindLine, taken⟩ := @singleFrom_solid start front text gap d
            ends solid within (Writer.singleFrom indent false cs ++ '\'' :: c :: rest)
          obtain ⟨place, line, read⟩ := ih .none behind (d :: gap.appendTo text) fit.tail
            (fun later => absurd later (by decide)) (fun _ => beyond)
            (fun _ some => absurd rfl some) (fun later => absurd later (by decide))
          refine ⟨place, by omega, ?_⟩
          rw [split, begins, taken]
          simpa [Gap.reverse_appendTo, Gap.none, Gap.text] using read

-----------------------------------------------------------------------------------------
-- Double quotes
-----------------------------------------------------------------------------------------

theorem doubleFrom_space (rest : List Char)
    : doubleFrom start text gap .outside (' ' :: rest) mark
      = doubleFrom start text (gap.addSpace ' ') .outside rest (mark.advance 1) := by
  rw [doubleFrom]
  · simp [isBreak, isSpacing]
  · exact fun _ same _ => absurd same (by decide)

theorem doubleFrom_word {c : Char} (stays : isBreak c = false) (solid : isSpacing c = false)
    (noQuote : c ≠ '"') (noBackslash : c ≠ '\\') (inside : 0 < mark.column) (rest : List Char)
    : doubleFrom start text gap .outside (c :: rest) mark
      = doubleFrom start (c :: gap.appendTo text) .none .outside rest (mark.advance 1) := by
  rw [doubleFrom]
  · simp [stays, solid, isSeparator_of_pos inside, noQuote, noBackslash]
  · rintro _ rfl _
    cases stays

theorem doubleFrom_end (inside : 0 < mark.column) (rest : List Char)
    : doubleFrom start text gap .outside ('"' :: rest) mark
      = .ok ((gap.appendTo text).reverse, ⟨rest, mark.advance 1⟩) := by
  rw [doubleFrom]
  · simp [isBreak, isSpacing, isSeparator_of_pos inside]
  · exact fun _ same _ => absurd same (by decide)

theorem doubleFrom_backslash (inside : 0 < mark.column) (rest : List Char)
    : doubleFrom start text gap .outside ('\\' :: rest) mark
      = doubleFrom start (gap.appendTo text) .none .opened rest (mark.advance 1) := by
  rw [doubleFrom]
  · simp [isBreak, isSpacing, isSeparator_of_pos inside]
  · exact fun _ same _ => absurd same (by decide)

theorem doubleFrom_short {c d : Char} (stays : isBreak c = false) (known : shortEscape? c = some d)
    (rest : List Char)
    : doubleFrom start text gap .opened (c :: rest) mark
      = doubleFrom start (d :: text) gap .outside rest (mark.advance 1) := by
  rw [doubleFrom]
  · simp [stays, known]
  · rintro _ rfl _
    cases stays

theorem doubleFrom_numbered {c : Char} {count : Nat} (stays : isBreak c = false)
    (long : shortEscape? c = none) (known : digitCount? c = some count) (rest : List Char)
    : doubleFrom start text gap .opened (c :: rest) mark
      = doubleFrom start text gap (.digits count 0) rest (mark.advance 1) := by
  rw [doubleFrom]
  · simp [stays, long, known]
  · rintro _ rfl _
    cases stays

/-- A digit that is written is read back, by looking at all sixteen. -/
theorem hexDigit?_hexDigit {n : Nat} (small : n < 16) : hexDigit? (Writer.hexDigit n) = some n := by
  revert n
  decide

/-- The digits of a number are read while more digits are to come; by induction on their count, the
last digit being read last.
-/
theorem doubleFrom_hexDigits (n width : Nat) (left value : Nat) (more : 0 < left)
    (rest : List Char)
    : doubleFrom start text gap (.digits (width + left) value) (hexDigits n width ++ rest) mark
      = doubleFrom start text gap (.digits left (value * 16 ^ width + n % 16 ^ width)) rest
          (mark.advance width) := by
  induction width generalizing n left rest with
  | zero => simp [hexDigits, Nat.mod_one, Mark.advance]
  | succ width ih =>
      have step := ih (n / 16) (left + 1) (Nat.succ_pos left)
        ([Writer.hexDigit (n % 16)] ++ rest)
      have next : 1 < left + 1 := by omega
      have whole : (value * 16 ^ width + n / 16 % 16 ^ width) * 16 + n % 16
          = value * 16 ^ (width + 1) + n % 16 ^ (width + 1) := by
        rw [Nat.pow_succ', Nat.mod_mul, Nat.add_mul, Nat.mul_assoc, Nat.mul_comm (16 ^ width) 16]
        omega
      rw [hexDigits, List.append_assoc, Nat.add_right_comm, Nat.add_assoc, step,
        List.singleton_append, doubleFrom, hexDigit?_hexDigit (Nat.mod_lt n (by decide))]
      simp only [next, if_true, whole, Nat.add_sub_cancel, Mark.advance_advance]

theorem isCharNumber_toNat (c : Char) : isCharNumber c.toNat = true := by
  have valid : c.toNat < 0xD800 ∨ 0xDFFF < c.toNat ∧ c.toNat < 0x110000 := c.valid
  simp only [isCharNumber, Bool.or_eq_true, Bool.and_eq_true, decide_eq_true_eq]
  omega

/-- An escape by number is read as its character, the last digit telling that it is whole. -/
theorem doubleFrom_number {c : Char} {width : Nat} (enough : c.toNat < 16 ^ (width + 1))
    (rest : List Char)
    : doubleFrom start text gap (.digits (width + 1) 0) (hexDigits c.toNat (width + 1) ++ rest)
        mark
      = doubleFrom start (c :: text) gap .outside rest (mark.advance (width + 1)) := by
  have front := @doubleFrom_hexDigits start mark text gap (c.toNat / 16) width 1 0 Nat.one_pos
    ([Writer.hexDigit (c.toNat % 16)] ++ rest)
  have high : c.toNat / 16 % 16 ^ width = c.toNat / 16 := by
    rw [Nat.mod_eq_of_lt]
    rw [Nat.pow_succ] at enough
    exact Nat.div_lt_of_lt_mul (by omega)
  have whole : c.toNat / 16 * 16 + c.toNat % 16 = c.toNat := Nat.div_add_mod' _ 16
  rw [hexDigits, List.append_assoc, front, high, Nat.zero_mul, Nat.zero_add, List.singleton_append,
    doubleFrom, hexDigit?_hexDigit (Nat.mod_lt _ (by decide))]
  simp [whole, isCharNumber_toNat, Mark.advance_advance]

/-- The ways to escape a character: by a letter of its own, or by its number. -/
inductive IsEscape (c : Char) : List Char → Prop where
  | short {e : Char} (stays : isBreak e = false) (known : shortEscape? e = some c)
    : IsEscape c ['\\', e]
  | number {e : Char} {width : Nat} (stays : isBreak e = false) (long : shortEscape? e = none)
      (known : digitCount? e = some (width + 1)) (enough : c.toNat < 16 ^ (width + 1))
    : IsEscape c ('\\' :: e :: hexDigits c.toNat (width + 1))

/-- A character whose number has a letter of its own is escaped by that letter. -/
theorem IsEscape.of_toNat {c d e : Char} {n : Nat} (known : shortEscape? e = some d)
    (stays : isBreak e = false) (number : d.toNat = n) (same : c.toNat = n)
    : IsEscape c ['\\', e] := by
  obtain rfl : c = d := Char.toNat_inj.mp (same.trans number.symm)
  exact .short stays known

/-- Every escaped character is escaped in one of these ways; by its number. -/
theorem isEscape_escaped (c : Char) : IsEscape c (escaped c) := by
  unfold escaped
  dsimp only
  iterate 14
    refine iteInduction (motive := fun body => IsEscape c ('\\' :: body))
      (fun same => .of_toNat (by rfl) (by decide) (by rfl) same) fun _ => ?_
  have below : c.toNat < 16 ^ 8 := by
    have valid : c.toNat < 0xD800 ∨ 0xDFFF < c.toNat ∧ c.toNat < 0x110000 := c.valid
    omega
  split
  next small => exact .number (by decide) (by decide) (by rfl) (Nat.lt_succ_of_le small)
  split
  next small => exact .number (by decide) (by decide) (by rfl) (Nat.lt_succ_of_le small)
  next => exact .number (by decide) (by decide) (by rfl) below

/-- An escape closes the gap and stands for its character. -/
theorem doubleFrom_escape {c : Char} {cs : List Char} (escape : IsEscape c cs)
    (inside : 0 < mark.column) (rest : List Char)
    : ∃ place : Mark, 0 < place.column ∧ place.line = mark.line
      ∧ doubleFrom start text gap .outside (cs ++ rest) mark
        = doubleFrom start (c :: gap.appendTo text) .none .outside rest place := by
  cases escape with
  | short stays known =>
      refine ⟨(mark.advance 1).advance 1, Nat.succ_pos _, rfl, ?_⟩
      rw [List.cons_append, List.cons_append, List.nil_append, doubleFrom_backslash inside,
        doubleFrom_short stays known]
  | @number e width stays long known enough =>
      refine ⟨((mark.advance 1).advance 1).advance (width + 1), Nat.succ_pos _, rfl, ?_⟩
      rw [List.cons_append, List.cons_append, doubleFrom_backslash inside,
        doubleFrom_numbered stays long known, doubleFrom_number enough]

/-- A character other than a space closes the gap, escaped or not. -/
theorem doubleFrom_solid {c : Char} (space : c ≠ ' ') (inside : 0 < mark.column)
    (rest : List Char)
    : ∃ place : Mark, 0 < place.column ∧ place.line = mark.line
      ∧ doubleFrom start text gap .outside (doubleChar c ++ rest) mark
        = doubleFrom start (c :: gap.appendTo text) .none .outside rest place := by
  unfold doubleChar
  split
  next => exact doubleFrom_escape (isEscape_escaped c) inside rest
  next plain =>
    simp only [Bool.or_eq_true, Bool.not_eq_true', beq_iff_eq, not_or, Bool.not_eq_false,
      Bool.not_eq_true] at plain
    obtain ⟨⟨⟨printable, stays⟩, noQuote⟩, noBackslash⟩ := plain
    have solid : isSpacing c = false := by
      rw [isSpacing_of_isPrintable printable, beq_eq_false_iff_ne]
      exact space
    exact ⟨mark.advance 1, Nat.succ_pos _, rfl,
      doubleFrom_word stays solid noQuote noBackslash inside rest⟩

/-- What is left of a text in double quotes is read up to the closing quote, with the spaces before
it. By induction on what is left, as in single quotes but on one line.
-/
theorem doubleFrom_text {cs rest : List Char} (gap : Gap) (mark : Mark) (text : List Char)
    (sameLine : gap.broken = false) (inside : 0 < mark.column)
    : ∃ place : Mark, place.line = mark.line
      ∧ doubleFrom start text gap .outside (cs.flatMap doubleChar ++ '"' :: rest) mark
        = .ok (text.reverse ++ gap.text ++ cs, ⟨rest, place⟩) := by
  induction cs generalizing gap mark text with
  | nil =>
      refine ⟨mark.advance 1, rfl, ?_⟩
      rw [List.flatMap_nil, List.nil_append, doubleFrom_end inside, Gap.reverse_appendTo,
        List.append_nil]
  | cons c cs ih =>
      rw [List.flatMap_cons, List.append_assoc]
      by_cases space : c = ' '
      · subst space
        obtain ⟨textEq, still⟩ := Gap.text_addSpace sameLine
        obtain ⟨place, line, read⟩ := ih (gap.addSpace ' ') (mark.advance 1) text still
          (Nat.succ_pos _)
        refine ⟨place, line, ?_⟩
        have itself : doubleChar ' ' = [' '] := by decide
        rw [itself, List.singleton_append, doubleFrom_space, read, textEq]
        simp
      · obtain ⟨behind, beyond, behindLine, taken⟩ := @doubleFrom_solid start mark text gap c space
          inside (cs.flatMap doubleChar ++ '"' :: rest)
        obtain ⟨place, line, read⟩ := ih .none behind (c :: gap.appendTo text) rfl beyond
        refine ⟨place, line.trans behindLine, ?_⟩
        rw [taken, read]
        simp [Gap.reverse_appendTo, Gap.none, Gap.text]

-----------------------------------------------------------------------------------------
-- Texts that are written in quotes
-----------------------------------------------------------------------------------------

theorem isSingleText_of_form {s : String} (form : formOf s = .single)
    : IsSingleText s.toList := by
  have fits := formOf_fits s
  rw [form] at fits
  obtain ⟨oneLine, allowed⟩ := fits
  simp only [Writer.singleAllowed, Writer.needsEscapes, Bool.and_eq_true, Bool.not_eq_true',
    Bool.or_eq_false_iff, List.any_eq_false] at allowed
  obtain ⟨noSpaceBehind, printable, noSpaceBefore⟩ := allowed
  refine ⟨by simpa using printable, fun c member same => ?_, noSpaceBefore, noSpaceBehind⟩
  exact oneLine (same ▸ member)

/-- A text that is written in single quotes is read back. -/
theorem quoted_of_single {s : String} {cursor : Cursor} {indent : Nat} {rest : List Char}
    (form : formOf s = .single) (indented : 0 < indent)
    (written : cursor.rest
      = '\'' :: (Writer.singleFrom indent false s.toList ++ '\'' :: '\n' :: rest))
    : ∃ place : Mark, cursor.mark.line ≤ place.line
      ∧ quoted true cursor = .ok (s.toList, ⟨'\n' :: rest, place⟩) := by
  obtain ⟨place, line, read⟩ := @singleFrom_text cursor.mark indent s.toList rest '\n' .none
    (cursor.mark.advance 1) [] indented (by decide) (isSingleText_of_form form)
    (fun later => absurd later (by decide)) (fun _ => Nat.succ_pos _)
    (fun _ some => absurd rfl some) (fun later => absurd later (by decide))
  refine ⟨place, line, ?_⟩
  unfold quoted Cursor.skip
  rw [written]
  exact read

/-- A text that is written in double quotes is read back. -/
theorem quoted_of_double {s : String} {cursor : Cursor} {rest : List Char}
    (written : cursor.rest = '"' :: (s.toList.flatMap doubleChar ++ '"' :: rest))
    : ∃ place : Mark, cursor.mark.line ≤ place.line
      ∧ quoted false cursor = .ok (s.toList, ⟨rest, place⟩) := by
  obtain ⟨place, line, read⟩ := @doubleFrom_text cursor.mark s.toList rest .none
    (cursor.mark.advance 1) [] rfl (Nat.succ_pos _)
  refine ⟨place, Nat.le_of_eq line.symm, ?_⟩
  unfold quoted Cursor.skip
  rw [written]
  exact read

end DocPipeline.Yaml.Scalar
