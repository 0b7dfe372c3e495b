import DocPipeline.Proofs.Text.Split
import DocPipeline.Text.Blank
import DocPipeline.Text.Lowercase
import Mathlib.Data.List.DropRight
import Mathlib.Tactic.Push

/-! Words of a text in small letters. The small letter of a sigma depends on what stands around it,
as far as a character that stops the search for other letters; words that are joined by such a
character have the same small letters as words on their own.
-/

namespace DocPipeline.Text

-----------------------------------------------------------------------------------------
-- White space
-----------------------------------------------------------------------------------------

/-- Nothing is left after trimming exactly if there is only white space. -/
theorem isEmptyTrimmed_iff (s : String)
    : isEmptyTrimmed s = true ↔ ∀ c ∈ s.toList, isBlank c = true := by
  have parted := List.takeWhile_append_dropWhile (p := isBlank) (l := s.toList)
  have front : ∀ c ∈ s.toList.takeWhile isBlank, isBlank c = true :=
    fun c member => List.mem_takeWhile_imp member
  have trimmed : trim s.toList = (s.toList.dropWhile isBlank).rdropWhile isBlank := rfl
  rw [isEmptyTrimmed, trimmed, List.isEmpty_iff, List.rdropWhile_eq_nil_iff]
  conv_rhs => rw [← parted, List.forall_mem_append]
  exact (and_iff_right front).symm

theorem isEmptyTrimmed_eq_false_iff (s : String)
    : isEmptyTrimmed s = false ↔ ∃ c ∈ s.toList, isBlank c = false := by
  rw [← Bool.not_eq_true, isEmptyTrimmed_iff]
  push Not
  simp only [Bool.not_eq_true]

/-- A text that begins with something is not empty after trimming. -/
theorem isEmptyTrimmed_append {first : String} {c : Char} (rest : String)
    (begins : first.toList.head? = some c) (dark : isBlank c = false)
    : isEmptyTrimmed (first ++ rest) = false := by
  rw [isEmptyTrimmed_eq_false_iff, String.toList_append]
  exact ⟨c, List.mem_append_left _ (List.mem_of_mem_head? begins), dark⟩

-----------------------------------------------------------------------------------------
-- Words
-----------------------------------------------------------------------------------------

/-- A word holds nothing but what has been read of it and what is in the text; by induction on the
text.
-/
theorem mem_of_mem_wordsFrom {read cs word : List Char} {c : Char}
    (member : word ∈ wordsFrom read cs) (inside : c ∈ word) : c ∈ read ∨ c ∈ cs := by
  induction cs generalizing read with
  | nil =>
      unfold wordsFrom at member
      split at member
      · cases member
      · rw [List.mem_singleton.mp member, List.mem_reverse] at inside
        exact .inl inside
  | cons first cs ih =>
      unfold wordsFrom at member
      split at member
      · split at member
        · exact .inr (List.mem_cons_of_mem _ ((ih member).resolve_left List.not_mem_nil))
        · rcases List.mem_cons.mp member with rfl | later
          · exact .inl (List.mem_reverse.mp inside)
          · exact .inr (List.mem_cons_of_mem _ ((ih later).resolve_left List.not_mem_nil))
      · rcases ih member with same | later
        · rcases List.mem_cons.mp same with rfl | before
          · exact .inr List.mem_cons_self
          · exact .inl before
        · exact .inr (List.mem_cons_of_mem _ later)

theorem mem_of_mem_words {cs word : List Char} {c : Char} (member : word ∈ words cs)
    (inside : c ∈ word) : c ∈ cs :=
  (mem_of_mem_wordsFrom member inside).resolve_left List.not_mem_nil

/-- No word is empty, by induction on the text. -/
theorem ne_nil_of_mem_wordsFrom {read cs word : List Char} (member : word ∈ wordsFrom read cs)
    : word ≠ [] := by
  induction cs generalizing read with
  | nil =>
      unfold wordsFrom at member
      split at member
      · cases member
      next some => simpa [List.mem_singleton.mp member] using some
  | cons first cs ih =>
      unfold wordsFrom at member
      split at member
      · split at member
        · exact ih member
        next some =>
          rcases List.mem_cons.mp member with rfl | later
          · simpa using some
          · exact ih later
      · exact ih member

-----------------------------------------------------------------------------------------
-- Small letters
-----------------------------------------------------------------------------------------

/-- A character that has no small letter, is the small letter of no other one, and ends the search
for letters with a case without being one.
-/
structure Neutral (mark : Char) : Prop where
  solid : inRanges ignorableRanges mark = false
  caseless : inRanges casedRanges mark = false
  small : lowerChar mark = [mark]
  alone : ∀ c, mark ∈ lowerChar c → c = mark
  notSigma : mark ≠ 'Σ' ∧ mark ≠ 'σ' ∧ mark ≠ 'ς'

/-- All small letters of the table lie behind the underscore. -/
theorem neutral_underscore : Neutral '_' where
  solid := by decide +kernel
  caseless := by decide +kernel
  small := by decide +kernel
  notSigma := by decide
  alone c member := by
    have behind : ∀ run ∈ letterRuns, (95 : Int) < run.first + run.offset := by decide +kernel
    unfold lowerChar at member
    split at member
    next => exact absurd member (by decide)
    next =>
      split at member
      next run found =>
        have covered := List.find?_some found
        have letter := List.mem_singleton.mp member
        simp only [LetterRun.covers, Bool.and_eq_true, decide_eq_true_eq] at covered
        have reached := behind run (List.mem_of_find?_eq_some found)
        have same : 95 = (Char.ofNat (c.toNat + run.offset).toNat).toNat :=
          congrArg Char.toNat letter
        by_cases valid : (c.toNat + run.offset).toNat.isValidChar
        · rw [Char.ofNat, dif_pos valid] at same
          change 95 = (c.toNat + run.offset).toNat at same
          omega
        · rw [Char.ofNat, dif_neg valid] at same
          cases same
      next => exact (List.mem_singleton.mp member).symm

variable {mark : Char}

theorem meetsCased_append (neutral : Neutral mark) (cs rest : List Char)
    : meetsCased (cs ++ mark :: rest) = meetsCased cs := by
  unfold meetsCased
  rw [List.find?_append]
  cases cs.find? fun c => !inRanges ignorableRanges c with
  | some c => rfl
  | none => simp [neutral.solid, neutral.caseless]

/-- What stands before the mark does not matter behind it, by induction on the text. -/
theorem lowercaseAfter_append (neutral : Neutral mark) (before rest cs : List Char)
    : lowercaseAfter (before ++ mark :: rest) cs = lowercaseAfter before cs := by
  induction cs generalizing before with
  | nil => rfl
  | cons c cs ih =>
      rw [lowercaseAfter, lowercaseAfter, meetsCased_append neutral, ← List.cons_append, ih]

/-- What stands behind the mark does not matter before it, by induction on the text before it. -/
theorem lowercaseAfter_mark (neutral : Neutral mark) (before cs rest : List Char)
    : lowercaseAfter before (cs ++ mark :: rest)
      = lowercaseAfter before cs ++ mark :: lowercase rest := by
  induction cs generalizing before with
  | nil =>
      have behind : lowercaseAfter (mark :: before) rest = lowercase rest :=
        lowercaseAfter_append neutral [] before rest
      change (if mark = 'Σ' then _ else lowerChar mark) ++ lowercaseAfter (mark :: before) rest = _
      rw [if_neg neutral.notSigma.1, neutral.small, behind]
      rfl
  | cons c cs ih =>
      rw [List.cons_append, lowercaseAfter, lowercaseAfter, meetsCased_append neutral, ih,
        List.append_assoc]

/-- Parts that are joined by the mark have their small letters each on its own; by induction on the
parts.
-/
theorem lowercase_joinWith (neutral : Neutral mark) (parts : List (List Char))
    : lowercase (joinWith mark parts) = joinWith mark (parts.map lowercase) := by
  induction parts with
  | nil => rfl
  | cons first more ih =>
      cases more with
      | nil => simp [joinWith]
      | cons second rest =>
          rw [joinWith_cons_cons, lowercase, lowercaseAfter_mark neutral, ih, List.map_cons,
            List.map_cons, List.map_cons, joinWith_cons_cons]
          rfl

theorem lowerChar_ne_nil (c : Char) : lowerChar c ≠ [] := by
  unfold lowerChar
  split
  · exact List.cons_ne_nil _ _
  · split <;> exact List.cons_ne_nil _ _

theorem lowercase_ne_nil {cs : List Char} (some : cs ≠ []) : lowercase cs ≠ [] := by
  obtain ⟨c, rest, rfl⟩ := List.exists_cons_of_ne_nil some
  unfold lowercase lowercaseAfter
  intro none
  obtain ⟨letters, _⟩ := List.append_eq_nil_iff.mp none
  split at letters
  · cases letters
  · exact lowerChar_ne_nil c letters

/-- A neutral character stands in small letters only where it stood before; by induction on the
text.
-/
theorem mem_of_mem_lowercaseAfter (neutral : Neutral mark) {before cs : List Char}
    (member : mark ∈ lowercaseAfter before cs) : mark ∈ cs := by
  induction cs generalizing before with
  | nil => cases member
  | cons c cs ih =>
      rcases List.mem_append.mp member with here | later
      · split at here
        next =>
          obtain ⟨_, small, final⟩ := neutral.notSigma
          split at here
          · exact absurd (List.mem_singleton.mp here) final
          · exact absurd (List.mem_singleton.mp here) small
        next => exact neutral.alone c here ▸ List.mem_cons_self
      · exact List.mem_cons_of_mem _ (ih later)

end DocPipeline.Text
