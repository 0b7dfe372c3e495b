import DocPipeline.Proofs.Yaml.Character

/-! Blocks of text read back. Each line loses its indentation again, and the indicators behind the
opening mark say how much of it there is and which of the breaks at the end belong to the text.
-/

namespace DocPipeline.Yaml.Scalar

open Writer (isPrintable spaces blockLines blockHeader formOf)

variable {chomping : Chomping} {indent margin : Nat} {start mark : Mark}

-----------------------------------------------------------------------------------------
-- What has been read
-----------------------------------------------------------------------------------------

/-- All that has been read of a block, breaks included. -/
def Block.content (block : Block) : List Char :=
  block.text.reverse ++ block.lead ++ block.more.reverse

/-- A block, and whether a line of it is open. -/
abbrev Block.Progress := Block × Bool

/-- One more character of the text of a literal block. -/
def Block.Progress.take (progress : Progress) (c : Char) : Progress :=
  if isBreak c then
    if progress.2 then ({ progress.1 with lead := [c] }, false)
    else ({ progress.1 with more := c :: progress.1.more }, false)
  else if progress.2 then ({ progress.1 with text := c :: progress.1.text }, true)
  else (progress.1.open true c, true)

/-- Inside a line no breaks are waiting. -/
def Block.Progress.Settled (progress : Progress) : Prop :=
  progress.2 = true → progress.1.lead = [] ∧ progress.1.more = []

theorem Block.Progress.take_snd (progress : Progress) (c : Char)
    : (progress.take c).2 = !isBreak c := by
  unfold take
  cases isBreak c <;> cases progress.2 <;> rfl

/-- Every character adds itself to what has been read; by cases on whether it is a break and whether
a line is open.
-/
theorem Block.Progress.take_content {progress : Progress} (settled : progress.Settled) (c : Char)
    : (progress.take c).1.content = progress.1.content ++ [c] ∧ (progress.take c).Settled := by
  obtain ⟨block, inLine⟩ := progress
  unfold take
  by_cases ends : isBreak c = true
  · rw [if_pos ends]
    cases inLine with
    | true =>
        have none : block.lead = [] ∧ block.more = [] := settled rfl
        simp [content, Settled, none]
    | false => simp [content, Settled]
  · rw [if_neg ends]
    cases inLine with
    | true =>
        have none : block.lead = [] ∧ block.more = [] := settled rfl
        simp [content, Settled, none]
    | false => simp [content, Settled, Block.open]

/-- A whole text adds itself to what has been read; by induction on the text. -/
theorem Block.Progress.foldl_take_content {progress : Progress} (settled : progress.Settled)
    (cs : List Char)
    : (cs.foldl take progress).1.content = progress.1.content ++ cs
      ∧ (cs.foldl take progress).Settled := by
  induction cs generalizing progress with
  | nil => exact ⟨(List.append_nil _).symm, settled⟩
  | cons c cs ih =>
      obtain ⟨one, still⟩ := take_content settled c
      obtain ⟨all, last⟩ := ih still
      refine ⟨?_, last⟩
      rw [List.foldl_cons, all, one, List.append_assoc, List.singleton_append]

-----------------------------------------------------------------------------------------
-- Lines
-----------------------------------------------------------------------------------------

theorem blockFrom_break {block : Block} {c : Char} (ends : isBreak c = true)
    (kept : foldedBreak c = c) (single : c ≠ '\r') (inLine : Bool) (rest : List Char)
    : blockFrom true chomping indent start block inLine (c :: rest) mark
      = blockFrom true chomping indent start (Block.Progress.take (block, inLine) c).1 false rest
          (mark.nextLine 1) := by
  rw [blockFrom]
  · cases inLine <;> simp [ends, kept, Block.Progress.take]
  · exact fun _ same _ => single same

theorem blockFrom_inLine {block : Block} {c : Char} (stays : isBreak c = false) (rest : List Char)
    : blockFrom true chomping indent start block true (c :: rest) mark
      = blockFrom true chomping indent start { block with text := c :: block.text } true rest
          (mark.advance 1) := by
  rw [blockFrom]
  · simp [stays]
  · rintro _ rfl _
    cases stays

/-- Indentation up to that of the block counts for nothing. -/
theorem blockFrom_indentation {block : Block} (n : Nat) (within : mark.column + n ≤ indent)
    (rest : List Char)
    : blockFrom true chomping indent start block false (spaces n ++ rest) mark
      = blockFrom true chomping indent start block false rest (mark.advance n) := by
  induction n generalizing mark with
  | zero => rfl
  | succ n ih =>
      have before : mark.column < indent := by omega
      have next : (mark.advance 1).column + n ≤ indent := by
        change mark.column + 1 + n ≤ indent
        omega
      rw [spaces_succ, List.cons_append, blockFrom]
      · have step := ih next
        rw [Mark.advance_advance, Nat.add_comm] at step
        simp [isBreak, before, step]
      · exact fun _ same _ => absurd same (by decide)

theorem blockFrom_open {block : Block} {c : Char} (stays : isBreak c = false)
    (place : mark.column = indent) (rest : List Char)
    : blockFrom true chomping indent start block false (c :: rest) mark
      = blockFrom true chomping indent start (block.open true c) true rest (mark.advance 1) := by
  rw [blockFrom]
  · simp [stays, place]
  · rintro _ rfl _
    cases stays

/-- The lines of a block are read character by character, each behind its indentation. By induction
on the text; between two lines the place is the first column.
-/
theorem blockFrom_lines {cs : List Char} (block : Block) (inLine : Bool) (mark : Mark)
    (printable : ∀ c ∈ cs, isPrintable c = true) (atStart : inLine = false → mark.column = 0)
    (rest : List Char)
    : ∃ place : Mark,
      ((cs.foldl Block.Progress.take (block, inLine)).2 = false → place.column = 0)
      ∧ blockFrom true chomping indent start block inLine
          (blockLines indent (!inLine) cs ++ rest) mark
        = blockFrom true chomping indent start (cs.foldl Block.Progress.take (block, inLine)).1
            (cs.foldl Block.Progress.take (block, inLine)).2 rest place := by
  induction cs generalizing block inLine mark with
  | nil => exact ⟨mark, atStart, rfl⟩
  | cons c cs ih =>
      obtain ⟨printableFirst, printableRest⟩ := List.forall_mem_cons.mp printable
      rw [List.foldl_cons]
      by_cases ends : isBreak c = true
      · have taken : Block.Progress.take (block, inLine) c
            = ((Block.Progress.take (block, inLine) c).1, false) := by
          cases inLine <;> simp [Block.Progress.take, ends]
        obtain ⟨place, after, read⟩ := ih (Block.Progress.take (block, inLine) c).1 false
          (mark.nextLine 1) printableRest fun _ => rfl
        rw [taken]
        refine ⟨place, after, ?_⟩
        rw [blockLines, if_pos ends, List.cons_append,
          blockFrom_break ends (foldedBreak_of_isPrintable printableFirst ends)
            (ne_of_isPrintable printableFirst (by decide))]
        exact read
      · have stays : isBreak c = false := by rwa [Bool.not_eq_true] at ends
        cases inLine with
        | true =>
            have taken : Block.Progress.take (block, true) c
                = ({ block with text := c :: block.text }, true) := by
              simp [Block.Progress.take, stays]
            obtain ⟨place, after, read⟩ := ih { block with text := c :: block.text } true
              (mark.advance 1) printableRest fun same => absurd same (by decide)
            rw [taken]
            refine ⟨place, after, ?_⟩
            rw [blockLines, if_neg ends]
            exact (blockFrom_inLine stays _).trans read
        | false =>
            have taken : Block.Progress.take (block, false) c = (block.open true c, true) := by
              simp [Block.Progress.take, stays]
            have first : mark.column = 0 := atStart rfl
            have within : mark.column + indent ≤ indent := by omega
            have edge : (mark.advance indent).column = indent := by
              change mark.column + indent = indent
              omega
            obtain ⟨place, after, read⟩ := ih (block.open true c) true
              ((mark.advance indent).advance 1) printableRest fun same => absurd same (by decide)
            rw [taken]
            refine ⟨place, after, ?_⟩
            rw [blockLines, if_neg ends, Bool.not_false, if_pos rfl, List.append_assoc,
              blockFrom_indentation indent within, List.cons_append, blockFrom_open stays edge]
            exact read

/-- A line that is indented less ends the block, as the end of the text does. -/
theorem blockFrom_end {column : Nat} {line : List Char} (block : Block)
    (content : IsContent column line) (outside : column < indent) (atStart : mark.column = 0)
    : blockFrom true chomping indent start block false (spaces column ++ line) mark
      = .ok (block.close chomping, ⟨line, mark.advance column⟩) := by
  have place : (mark.advance column).column = column := by
    change mark.column + column = column
    omega
  rw [blockFrom_indentation column (by omega)]
  cases line with
  | nil => rw [blockFrom]
  | cons c rest =>
      obtain ⟨solid, stays, _, _⟩ := content
      simp only [isSpacing, Bool.or_eq_false_iff, beq_eq_false_iff_ne] at solid
      have apart : column ≠ indent := Nat.ne_of_lt outside
      rw [blockFrom]
      · simp [stays, solid, place, apart]
      · rintro _ rfl _
        cases stays

-----------------------------------------------------------------------------------------
-- Breaks at the end
-----------------------------------------------------------------------------------------

/-- What happens to the breaks at the end of a text that is written as a block. -/
def chompingOf (cs : List Char) : Chomping :=
  match cs.reverse with
  | c :: before =>
    if !isBreak c then .strip
    else
      match before with
      | [] => .keep
      | d :: _ => if isBreak d then .keep else .clip
  | [] => .strip

/-- The end of the last line, unless the text ends with a break itself. -/
def lineEnd (cs : List Char) : List Char :=
  if cs.getLast?.any isBreak then [] else ['\n']

theorem chompingOf_concat (front : List Char) (last : Char)
    : chompingOf (front ++ [last])
      = if !isBreak last then .strip
        else
          match front.reverse with
          | [] => .keep
          | d :: _ => if isBreak d then .keep else .clip := by
  simp [chompingOf]

theorem lineEnd_concat (front : List Char) (last : Char)
    : lineEnd (front ++ [last]) = if isBreak last then [] else ['\n'] := by
  simp [lineEnd]

/-- What has been read of a text from the beginning. -/
def Block.Progress.ofText (cs : List Char) : Progress :=
  cs.foldl take (⟨[], [], [], false⟩, false)

theorem Block.Progress.ofText_content (cs : List Char)
    : (ofText cs).1.content = cs ∧ (ofText cs).Settled :=
  foldl_take_content (fun same => absurd same (by decide)) cs

theorem Block.Progress.ofText_concat (front : List Char) (last : Char)
    : ofText (front ++ [last]) = (ofText front).take last := by
  rw [ofText, List.foldl_append]
  rfl

/-- A text that ends with a line is closed without the break behind it. -/
theorem close_of_line {front : List Char} {last : Char} (stays : isBreak last = false)
    (lead : List Char)
    : Block.close { (Block.Progress.ofText (front ++ [last])).1 with lead := lead }
        (chompingOf (front ++ [last]))
      = front ++ [last] := by
  obtain ⟨whole, settled⟩ := Block.Progress.ofText_content (front ++ [last])
  have inLine : (Block.Progress.ofText (front ++ [last])).2 = true := by
    rw [Block.Progress.ofText_concat, Block.Progress.take_snd, stays, Bool.not_false]
  obtain ⟨noLead, noMore⟩ := settled inLine
  rw [Block.content, noLead, noMore] at whole
  simpa [Block.close, chompingOf_concat, stays] using whole

/-- A text that ends with a break is closed with all its breaks: a single one behind a line is
clipped to itself, and several ones, or one alone, are kept.
-/
theorem close_of_break {front : List Char} {last : Char} (ends : isBreak last = true)
    : Block.close (Block.Progress.ofText (front ++ [last])).1 (chompingOf (front ++ [last]))
      = front ++ [last] := by
  obtain ⟨whole, _⟩ := Block.Progress.ofText_content (front ++ [last])
  rw [chompingOf_concat, ends, Bool.not_true, if_neg (by decide)]
  rcases List.eq_nil_or_concat front with rfl | ⟨before, d, rfl⟩
  · exact whole
  rw [List.concat_eq_append] at whole ⊢
  simp only [List.reverse_append, List.reverse_singleton, List.singleton_append]
  by_cases also : isBreak d = true
  · rw [if_pos also]
    exact whole
  · rw [if_neg also]
    rw [Bool.not_eq_true] at also
    have inLine : (Block.Progress.ofText (before ++ [d])).2 = true := by
      rw [Block.Progress.ofText_concat, Block.Progress.take_snd, also, Bool.not_false]
    obtain ⟨_, noMore⟩ := (Block.Progress.ofText_content (before ++ [d])).2 inLine
    rw [Block.Progress.ofText_concat] at whole ⊢
    simpa [Block.content, Block.close, Block.Progress.take, ends, inLine, noMore] using whole

/-- A block that ends with its last line is the whole text. -/
theorem blockFrom_text {cs line : List Char} {column : Nat} (nonempty : cs ≠ [])
    (printable : ∀ c ∈ cs, isPrintable c = true) (content : IsContent column line)
    (outside : column < indent) (atStart : mark.column = 0)
    : ∃ place : Mark, place.column = column
      ∧ blockFrom true (chompingOf cs) indent start ⟨[], [], [], false⟩ false
          (blockLines indent true cs ++ (lineEnd cs ++ (spaces column ++ line))) mark
        = .ok (cs, ⟨line, place⟩) := by
  obtain ⟨behind, between, read⟩ := @blockFrom_lines (chompingOf cs) indent start cs
    ⟨[], [], [], false⟩ false mark printable (fun _ => atStart)
    (lineEnd cs ++ (spaces column ++ line))
  change blockFrom _ _ _ _ _ _ _ _ = blockFrom _ _ _ _ (Block.Progress.ofText cs).1
    (Block.Progress.ofText cs).2 _ _ at read
  change (Block.Progress.ofText cs).2 = false → _ at between
  rw [Bool.not_false] at read
  rcases List.eq_nil_or_concat cs with rfl | ⟨front, last, rfl⟩
  · exact absurd rfl nonempty
  rw [List.concat_eq_append] at read between ⊢
  rw [read]
  cases ends : isBreak last with
  | false =>
      have inLine : (Block.Progress.ofText (front ++ [last])).2 = true := by
        rw [Block.Progress.ofText_concat, Block.Progress.take_snd, ends, Bool.not_false]
      refine ⟨(behind.nextLine 1).advance column, Nat.zero_add column, ?_⟩
      rw [lineEnd_concat, ends, inLine, if_neg (by decide), List.singleton_append,
        blockFrom_break (by decide) (by rfl) (by decide), blockFrom_end _ content outside rfl]
      exact congrArg (fun text => Except.ok (text, _)) (close_of_line ends ['\n'])
  | true =>
      have atBreak : (Block.Progress.ofText (front ++ [last])).2 = false := by
        rw [Block.Progress.ofText_concat, Block.Progress.take_snd, ends, Bool.not_true]
      have first := between atBreak
      refine ⟨behind.advance column, ?_, ?_⟩
      · change behind.column + column = column
        omega
      · rw [lineEnd_concat, ends, atBreak, if_pos rfl, List.nil_append,
          blockFrom_end _ content outside first, close_of_break ends]

-----------------------------------------------------------------------------------------
-- Indicators
-----------------------------------------------------------------------------------------

/-- The text begins with white space, which hides its indentation. -/
def hidesIndentation (cs : List Char) : Bool :=
  cs.head?.any fun c => c == ' ' || isBreak c

/-- The indicator of a chomping. -/
def Chomping.indicator : Chomping → List Char
  | strip => ['-']
  | clip => []
  | keep => ['+']

theorem blockHeader_eq (cs : List Char)
    : blockHeader cs
      = '|' :: ((if hidesIndentation cs then ['2'] else []) ++ (chompingOf cs).indicator) := by
  unfold blockHeader hidesIndentation chompingOf
  cases cs.reverse with
  | nil => rfl
  | cons c before =>
      cases before with
      | nil => cases ends : isBreak c <;> simp [Chomping.indicator, ends]
      | cons d before =>
          cases ends : isBreak c <;> cases also : isBreak d <;>
            simp [Chomping.indicator, ends, also]

/-- The indicators are read up to the end of their line; by cases on them. -/
theorem header_indicators {cursor : Cursor} (hint : Bool) (chomping : Chomping) (rest : List Char)
    (written : cursor.rest = (if hint then ['2'] else []) ++ (chomping.indicator ++ '\n' :: rest))
    : ∃ place : Mark,
      header cursor start = .ok (⟨chomping, if hint then 2 else 0⟩, ⟨'\n' :: rest, place⟩) := by
  obtain ⟨_, mark⟩ := cursor
  cases hint <;> cases chomping <;> subst written <;> exact ⟨_, rfl⟩

/-- Without a hint the first line tells the indentation of the block. -/
theorem detectFrom_spaces {c : Char} {n : Nat} (solid : isSpacing c = false)
    (stays : isBreak c = false) (rest : List Char)
    : detectFrom start 0 [] (spaces n ++ c :: rest) mark
      = .ok (mark.column + n, [], ⟨c :: rest, mark.advance n⟩) := by
  simp only [isSpacing, Bool.or_eq_false_iff] at solid
  induction n generalizing mark with
  | zero =>
      change detectFrom start 0 [] (c :: rest) mark = _
      rw [detectFrom]
      · simp [solid.1, solid.2, stays, Mark.advance]
      · rintro _ rfl _
        cases stays
  | succ n ih =>
      rw [spaces_succ, List.cons_append, detectFrom]
      · have place : (mark.advance 1).column + n = mark.column + (n + 1) := by
          change mark.column + 1 + n = _
          omega
        simp only [beq_self_eq_true, if_true]
        rw [ih, place, Mark.advance_advance, Nat.add_comm 1 n]
      · exact fun _ same _ => absurd same (by decide)

/-- Behind its indicators a block begins on the next line, with the indentation that they give or
that its first line shows.
-/
theorem block_of_header {cursor : Cursor} {hint : Nat} {rest : List Char}
    (known : header (cursor.skip 1) cursor.mark = .ok (⟨chomping, hint⟩, ⟨'\n' :: rest, mark⟩))
    : block true margin cursor
      = if hint = 0 then do
          let (widest, breaks, body) ← detectFrom cursor.mark 0 [] rest (mark.nextLine 1)
          blockFrom true chomping (max (max widest margin) 1) cursor.mark ⟨[], [], breaks, false⟩
            false body.rest body.mark
        else
          blockFrom true chomping (margin - 1 + hint) cursor.mark ⟨[], [], [], false⟩ false rest
            (mark.nextLine 1) := by
  unfold block
  dsimp only
  rw [known]
  rfl

/-- The lines of a written block are read with the indentation they were written with, by a hint
where the text hides it and by the first line elsewhere.
-/
theorem block_lines {cursor : Cursor} {cs : List Char} (nonempty : cs ≠ []) (pos : 0 < margin)
    (printable : ∀ c ∈ cs, isPrintable c = true) (rest : List Char)
    (written : cursor.rest = blockHeader cs ++ '\n' :: (blockLines (margin + 1) true cs ++ rest))
    : ∃ place : Mark, place.column = 0
      ∧ block true margin cursor
        = blockFrom true (chompingOf cs) (margin + 1) cursor.mark ⟨[], [], [], false⟩ false
            (blockLines (margin + 1) true cs ++ rest) place := by
  obtain ⟨behind, known⟩ := @header_indicators cursor.mark (cursor.skip 1) (hidesIndentation cs)
    (chompingOf cs) (blockLines (margin + 1) true cs ++ rest)
    (by rw [Cursor.skip, written, blockHeader_eq]; simp)
  refine ⟨behind.nextLine 1, rfl, ?_⟩
  rw [block_of_header known]
  cases hidden : hidesIndentation cs with
  | true =>
      have indent : margin - 1 + 2 = margin + 1 := by omega
      rw [if_pos rfl, if_neg (by decide), indent]
  | false =>
      rw [if_neg Bool.false_ne_true, if_pos rfl]
      cases cs with
      | nil => exact absurd rfl nonempty
      | cons c cs =>
          simp only [hidesIndentation, List.head?_cons, Option.any_some, Bool.or_eq_false_iff]
            at hidden
          have solid : isSpacing c = false := by
            rw [isSpacing_of_isPrintable (printable c List.mem_cons_self)]
            exact hidden.1
          have line : blockLines (margin + 1) true (c :: cs) ++ rest
              = spaces (margin + 1) ++ c :: (blockLines (margin + 1) false cs ++ rest) := by
            simp [blockLines, hidden.2]
          have widest : max (max ((behind.nextLine 1).column + (margin + 1)) margin) 1
              = margin + 1 := by
            change max (max (0 + (margin + 1)) margin) 1 = margin + 1
            omega
          have start : (behind.nextLine 1).column + (margin + 1) ≤ margin + 1 :=
            Nat.le_of_eq (Nat.zero_add _)
          rw [line, detectFrom_spaces solid hidden.2, blockFrom_indentation (margin + 1) start]
          change blockFrom _ _ (max (max _ margin) 1) _ _ _ _ _ = _
          rw [widest]

/-- A text that is written as a block is read back. -/
theorem block_of_form {s : String} {cursor : Cursor} {line : List Char} {column : Nat}
    (form : formOf s = .block) (pos : 0 < margin)
    (written : cursor.rest
      = blockHeader s.toList ++ '\n' :: (blockLines (margin + 1) true s.toList
          ++ (lineEnd s.toList ++ (spaces column ++ line))))
    (content : IsContent column line) (outside : column < margin + 1)
    : ∃ place : Mark, place.column = column
      ∧ block true margin cursor = .ok (s.toList, ⟨line, place⟩) := by
  have allowed := formOf_fits s
  rw [form] at allowed
  simp only [Writer.Form.Fits, Writer.blockAllowed, Writer.needsEscapes, Bool.and_eq_true,
    Bool.not_eq_true', Bool.or_eq_false_iff, List.any_eq_false] at allowed
  have nonempty : s.toList ≠ [] := by simpa using allowed.1.1
  have printable : ∀ c ∈ s.toList, isPrintable c = true := by simpa using allowed.2.1
  obtain ⟨place, atStart, lines⟩ := block_lines nonempty pos printable _ written
  obtain ⟨last, col, read⟩ := @blockFrom_text (margin + 1) cursor.mark place s.toList line column
    nonempty printable content outside atStart
  exact ⟨last, col, lines.trans read⟩

end DocPipeline.Yaml.Scalar
