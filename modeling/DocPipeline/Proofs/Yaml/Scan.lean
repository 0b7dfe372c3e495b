import DocPipeline.Proofs.Except
import DocPipeline.Proofs.Yaml.Character

/-! The scanner between two tokens. A state stands at a token when the white space before it and the
deeper blocks are behind it; it lands at one when it only has those before it. What has been read is
told by the kinds of the tokens.
-/

namespace DocPipeline.Yaml.Scanner

/-- What the tokens so far are. -/
def kinds (s : Scanner) : List Token.Kind :=
  s.tokens.toList.map (·.kind)

-----------------------------------------------------------------------------------------
-- Runs
-----------------------------------------------------------------------------------------

/-- Reading on from the first state is reading on from the second one, as long as there are more
steps than characters.
-/
def Reads (s t : Scanner) : Prop :=
  ∀ steps, s.cursor.rest.length < steps →
    ∃ more, t.cursor.rest.length < more ∧ s.run steps = t.run more

theorem Reads.trans {s t u : Scanner} (first : Reads s t) (second : Reads t u) : Reads s u := by
  intro steps enough
  obtain ⟨more, still, same⟩ := first steps enough
  obtain ⟨last, left, also⟩ := second more still
  exact ⟨last, left, same.trans also⟩

theorem run_fetch {s a t : Scanner} {c : Char} {rest : List Char} (near : s.approach = .ok a)
    (front : a.cursor.rest = c :: rest) (token : a.fetch c rest = .ok t) (steps : Nat)
    : s.run (steps + 1) = t.run steps := by
  rw [run, near, Except.ok_bind, front]
  dsimp only
  rw [token, Except.ok_bind]

theorem run_finish {s a : Scanner} (near : s.approach = .ok a) (last : a.cursor.rest = [])
    (steps : Nat) : s.run (steps + 1) = a.finish := by
  rw [run, near, Except.ok_bind, last]

/-- Reading one token takes one step, and at least one character. -/
theorem Reads.of_fetch {s a t : Scanner} {c : Char} {rest : List Char} (near : s.approach = .ok a)
    (front : a.cursor.rest = c :: rest) (token : a.fetch c rest = .ok t)
    (shorter : t.cursor.rest.length < s.cursor.rest.length) : Reads s t := by
  intro steps enough
  cases steps with
  | zero => exact absurd enough (Nat.not_lt_zero _)
  | succ steps =>
      exact ⟨steps, by omega, run_fetch near front token steps⟩

-----------------------------------------------------------------------------------------
-- White space
-----------------------------------------------------------------------------------------

theorem toNextToken_length (flow : Bool) (cs : List Char) (allowed comment : Bool) (mark : Mark)
    : (toNextToken flow allowed comment cs mark).2.rest.length ≤ cs.length := by
  fun_induction toNextToken flow allowed comment cs mark <;> simp_all <;> omega

/-- Content is where white space ends. -/
theorem toNextToken_content {column : Nat} {text : List Char} (content : IsContent column text)
    (flow allowed : Bool) (mark : Mark)
    : toNextToken flow allowed false text mark = (allowed, ⟨text, mark⟩) := by
  cases text with
  | nil => rw [toNextToken]
  | cons c rest =>
      obtain ⟨solid, stays, noComment, noMark⟩ := content
      simp only [isSpacing, Bool.or_eq_false_iff, beq_eq_false_iff_ne] at solid
      rw [toNextToken]
      · simp [stays, solid, noComment, noMark]
      · rintro _ rfl _
        cases stays

theorem toNextToken_spaces (flow allowed : Bool) (n : Nat) (rest : List Char) (mark : Mark)
    : toNextToken flow allowed false (Writer.spaces n ++ rest) mark
      = toNextToken flow allowed false rest (mark.advance n) := by
  induction n generalizing mark with
  | zero => rfl
  | succ n ih =>
      rw [spaces_succ, List.cons_append, toNextToken]
      · have step := ih (mark.advance 1)
        rw [Mark.advance_advance, Nat.add_comm] at step
        simp [isBreak, step]
      · exact fun _ same _ => absurd same (by decide)

/-- A new line lets a key begin. -/
theorem toNextToken_newline (allowed : Bool) (rest : List Char) (mark : Mark)
    : toNextToken false allowed false ('\n' :: rest) mark
      = toNextToken false true false rest (mark.nextLine 1) := by
  rw [toNextToken]
  · simp [isBreak]
  · exact fun _ same _ => absurd same (by decide)

-----------------------------------------------------------------------------------------
-- Places between tokens
-----------------------------------------------------------------------------------------

/-- The scanner stands in a column before the text, outside brackets and without a possible key, in
blocks of these margins.
-/
structure Stands (s : Scanner) (column : Nat) (text : List Char) (margins : List Nat)
    (kinds : List Token.Kind) (allowed : Bool) : Prop where
  text : s.cursor.rest = text
  column : s.mark.column = column
  outside : s.outer = []
  noKey : s.key = none
  allowed : s.keyAllowed = allowed
  margins : s.margins = margins
  kinds : s.kinds = kinds

/-- The possible key, if there is one, is no longer one on the line of the place. -/
def Forgets (s : Scanner) (place : Mark) : Prop :=
  ∀ key ∈ s.key, key.required = false ∧ key.mark.line < place.line

/-- The scanner comes to stand in the column before the text, behind white space with a line end in
it and the ends of the blocks that lie deeper.
-/
structure Lands (s : Scanner) (column : Nat) (text : List Char) (margins : List Nat)
    (kinds : List Token.Kind) : Prop where
  outside : s.outer = []
  place : ∃ place : Mark, place.column = column ∧ s.Forgets place
    ∧ toNextToken false s.keyAllowed false s.cursor.rest s.mark = (true, ⟨text, place⟩)
  blocks : ∃ inner, s.margins = inner ++ margins ∧ (∀ margin ∈ inner, column + 1 < margin)
    ∧ s.kinds ++ List.replicate inner.length .blockEnd = kinds

variable {s : Scanner} {column : Nat} {text : List Char} {margins : List Nat}
  {kinds : List Token.Kind} {allowed : Bool}

theorem Lands.length_le (lands : Lands s column text margins kinds)
    : text.length ≤ s.cursor.rest.length := by
  obtain ⟨place, _, _, found⟩ := lands.place
  have shorter := toNextToken_length false s.cursor.rest s.keyAllowed false s.mark
  rwa [found] at shorter

/-- A block that lies deeper than the place ends there. -/
theorem Lands.close {margin : Nat} (lands : Lands s column text (margin :: margins) kinds)
    (deeper : column + 1 < margin) : Lands s column text margins (kinds ++ [.blockEnd]) where
  outside := lands.outside
  place := lands.place
  blocks := by
    obtain ⟨inner, parts, deep, known⟩ := lands.blocks
    refine ⟨inner ++ [margin], by rw [parts, List.append_assoc]; rfl, ?_, ?_⟩
    · intro other member
      rcases List.mem_append.mp member with before | last
      · exact deep other before
      · rw [List.mem_singleton.mp last]
        exact deeper
    · rw [← known, List.length_append, List.length_singleton, List.replicate_succ',
        List.append_assoc]

/-- From where the scanner stands behind a colon or a dash, the next line can be reached. -/
theorem Stands.lands_newline {n : Nat} {line : List Char}
    (stands : Stands s column ('\n' :: (Writer.spaces n ++ line)) margins kinds allowed)
    (content : IsContent n line) : Lands s n line margins kinds where
  outside := stands.outside
  place := by
    refine ⟨(s.mark.nextLine 1).advance n, Nat.zero_add n, ?_, ?_⟩
    · intro key member
      rw [stands.noKey] at member
      cases member
    · rw [stands.text, toNextToken_newline, toNextToken_spaces, toNextToken_content content]
  blocks := ⟨[], stands.margins, by simp, by simp [stands.kinds]⟩

/-- Behind a dash the next content stands two columns further on the same line. -/
theorem Stands.lands_space (stands : Stands s column (' ' :: text) margins kinds true)
    (content : IsContent (column + 1) text) : Lands s (column + 1) text margins kinds where
  outside := stands.outside
  place := by
    refine ⟨s.mark.advance 1, congrArg (· + 1) stands.column, ?_, ?_⟩
    · intro key member
      rw [stands.noKey] at member
      cases member
    · have spaces := toNextToken_spaces false true 1 text s.mark
      rw [stands.text, stands.allowed]
      exact spaces.trans (toNextToken_content content _ _ _)
  blocks := ⟨[], stands.margins, by simp, by simp [stands.kinds]⟩

-----------------------------------------------------------------------------------------
-- Approaching a token
-----------------------------------------------------------------------------------------

theorem closeBlocks_shallow {limit : Nat} (mark : Mark) (tokens : Array Token)
    (fits : margins.headD 0 ≤ limit)
    : closeBlocks limit mark margins tokens = (margins, tokens) := by
  cases margins with
  | nil => rfl
  | cons margin margins =>
      have shallow : ¬limit < margin := Nat.not_lt_of_le fits
      rw [closeBlocks, if_neg shallow]

/-- Exactly the blocks that lie deeper than the limit are closed; by induction on these. -/
theorem closeBlocks_deeper {limit : Nat} {inner : List Nat} (mark : Mark) (tokens : Array Token)
    (deep : ∀ margin ∈ inner, limit < margin) (fits : margins.headD 0 ≤ limit)
    : ∃ closed, closeBlocks limit mark (inner ++ margins) tokens = (margins, closed)
      ∧ closed.toList.map (·.kind)
        = tokens.toList.map (·.kind) ++ List.replicate inner.length .blockEnd := by
  induction inner generalizing tokens with
  | nil =>
      exact ⟨tokens, closeBlocks_shallow mark tokens fits, (List.append_nil _).symm⟩
  | cons margin inner ih =>
      obtain ⟨deeper, rest⟩ := List.forall_mem_cons.mp deep
      obtain ⟨closed, done, known⟩ := ih (tokens.push ⟨.blockEnd, mark, mark⟩) rest
      refine ⟨closed, ?_, ?_⟩
      · rw [List.cons_append, closeBlocks, if_pos deeper, done]
      · rw [known, Array.toList_push, List.map_append, List.append_assoc, List.length_cons,
          List.replicate_succ]
        rfl

theorem refresh_of_forgets {mark : Mark} (forgets : s.Forgets mark)
    : refresh mark s.key = .ok none := by
  cases known : s.key with
  | none => rfl
  | some key =>
      obtain ⟨free, before⟩ := forgets key known
      simp [refresh, PossibleKey.isStale, free, before]

theorem unroll_shallow {limit : Nat} (fits : s.margin ≤ limit) : s.unroll limit = s := by
  unfold unroll
  split
  · rfl
  · rw [closeBlocks_shallow s.mark s.tokens fits]

/-- Outside brackets deeper blocks are closed, and nothing else changes. -/
theorem unroll_deeper {limit : Nat} {inner : List Nat} (outside : s.outer = [])
    (parts : s.margins = inner ++ margins) (deep : ∀ margin ∈ inner, limit < margin)
    (fits : margins.headD 0 ≤ limit)
    : ∃ closed, s.unroll limit = { s with margins := margins, tokens := closed }
      ∧ closed.toList.map (·.kind) = s.kinds ++ List.replicate inner.length .blockEnd := by
  obtain ⟨closed, done, known⟩ := closeBlocks_deeper s.mark s.tokens deep fits
  refine ⟨closed, ?_, known⟩
  have flat : s.inFlow = false := by simp [inFlow, outside]
  unfold unroll
  rw [flat, if_neg Bool.false_ne_true, parts, done]

/-- A token is approached past the white space and what is no longer a possible key. -/
theorem approach_of_kept {cursor : Cursor} {t : Scanner}
    (found : toNextToken s.inFlow s.keyAllowed false s.cursor.rest s.mark = (allowed, cursor))
    (kept : dropStaleKeys { s with cursor := cursor, keyAllowed := allowed } = .ok t)
    : s.approach = .ok (t.unroll (t.mark.column + 1)) := by
  unfold approach
  rw [found]
  dsimp only
  rw [kept]
  rfl

/-- Where the scanner lands, it comes to stand when it approaches the next token. -/
theorem Lands.approach (lands : Lands s column text margins kinds)
    (fits : margins.headD 0 ≤ column + 1)
    : ∃ a, s.approach = .ok a ∧ Stands a column text margins kinds true := by
  obtain ⟨place, col, forgets, found⟩ := lands.place
  obtain ⟨inner, parts, deep, known⟩ := lands.blocks
  have flat : s.inFlow = false := by simp [inFlow, lands.outside]
  let near : Scanner := { s with cursor := ⟨text, place⟩, keyAllowed := true, key := none }
  have dropped : dropStaleKeys { s with cursor := ⟨text, place⟩, keyAllowed := true }
      = .ok near := by
    unfold dropStaleKeys
    change (refresh place s.key >>= fun key => s.outer.mapM (refresh place) >>= fun outer =>
      Except.ok { s with cursor := ⟨text, place⟩, keyAllowed := true, key := key, outer := outer })
      = _
    rw [refresh_of_forgets forgets, lands.outside]
    simp only [near, lands.outside]
    rfl
  obtain ⟨closed, done, kindsEq⟩ := @unroll_deeper near margins (place.column + 1) inner
    lands.outside parts (by rwa [col]) (by rwa [col])
  refine ⟨near.unroll (place.column + 1), ?_, ?_⟩
  · refine approach_of_kept ?_ dropped
    rw [flat, found]
  · rw [done]
    exact ⟨rfl, col, lands.outside, rfl, rfl, rfl, kindsEq.trans known⟩

-----------------------------------------------------------------------------------------
-- Opening collections
-----------------------------------------------------------------------------------------

/-- The margins of the open blocks, and the tokens that open a collection, when one in this column
begins: it is a new one only if it lies deeper than the others.
-/
def opened (kind : Token.Kind) (column : Nat) (margins : List Nat) : List Nat × List Token.Kind :=
  if margins.headD 0 < column + 1 then ((column + 1) :: margins, [kind]) else (margins, [])

theorem insertIdx_append {α : Type} (front back : List α) (x : α)
    : (front ++ back).insertIdx front.length x = front ++ x :: back := by
  induction front with
  | nil => rfl
  | cons y front ih => rw [List.cons_append, List.length_cons, List.insertIdx_succ_cons, ih]; rfl

/-- A token that is put behind the first ones stands between these and the others. -/
theorem insert_tokens {front back : List Token} (parts : s.tokens.toList = front ++ back)
    (kind : Token.Kind) (mark : Mark)
    : (s.insert front.length kind mark).tokens.toList = front ++ ⟨kind, mark, mark⟩ :: back := by
  have whole : s.tokens = (front ++ back).toArray := by rw [← parts]
  unfold insert
  rw [whole]
  dsimp only
  rw [List.insertIdxIfInBounds_toArray, insertIdx_append]

/-- A collection that begins in the column of a place is opened before the tokens behind it. -/
theorem roll_opened {front back : List Token} (outside : s.outer = [])
    (parts : s.tokens.toList = front ++ back) (kind : Token.Kind) (mark : Mark)
    : ∃ tokens : Array Token,
      s.roll kind front.length mark
        = { s with margins := (opened kind mark.column s.margins).1, tokens := tokens }
      ∧ tokens.toList.map (·.kind)
        = front.map (·.kind) ++ (opened kind mark.column s.margins).2 ++ back.map (·.kind) := by
  have flat : s.inFlow = false := by simp [inFlow, outside]
  unfold roll opened
  rw [flat, Bool.not_false, Bool.true_and]
  by_cases deeper : s.margins.headD 0 < mark.column + 1
  · rw [if_pos (by simpa [margin] using deeper), if_pos deeper]
    have inserted := @insert_tokens { s with margins := (mark.column + 1) :: s.margins } front back
      parts kind mark
    exact ⟨_, rfl, (congrArg (List.map Token.kind) inserted).trans (by simp)⟩
  · rw [if_neg (by simpa [margin] using deeper), if_neg deeper]
    exact ⟨s.tokens, rfl, by simp [parts]⟩

end DocPipeline.Yaml.Scanner
