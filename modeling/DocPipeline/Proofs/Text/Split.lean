import DocPipeline.Text.Split

/-! Texts cut at a mark and put together again. No part holds the mark, and parts without the mark
are the ones that come out again.
-/

namespace DocPipeline.Text

variable {mark : Char}

theorem splitAt_ne_nil (mark : Char) (cs : List Char) : splitAt mark cs ≠ [] := by
  induction cs with
  | nil => exact List.cons_ne_nil _ _
  | cons c rest ih =>
      unfold splitAt
      split
      · exact List.cons_ne_nil _ _
      · cases split : splitAt mark rest with
        | nil => exact absurd split ih
        | cons first more => exact List.cons_ne_nil _ _

theorem splitAt_mark (mark : Char) (rest : List Char)
    : splitAt mark (mark :: rest) = [] :: splitAt mark rest := by
  simp [splitAt]

theorem splitAt_cons_of_ne {c : Char} {rest first : List Char} {more : List (List Char)}
    (plain : c ≠ mark) (split : splitAt mark rest = first :: more)
    : splitAt mark (c :: rest) = (c :: first) :: more := by
  simp [splitAt, plain, split]

/-- No part holds the mark, by induction on the text. -/
theorem not_mem_of_mem_splitAt {cs part : List Char} (member : part ∈ splitAt mark cs)
    : mark ∉ part := by
  induction cs generalizing part with
  | nil =>
      obtain rfl := List.mem_singleton.mp member
      exact List.not_mem_nil
  | cons c rest ih =>
      by_cases same : c = mark
      · rw [same, splitAt_mark] at member
        rcases List.mem_cons.mp member with rfl | later
        · exact List.not_mem_nil
        · exact ih later
      · obtain ⟨first, more, split⟩ := List.exists_cons_of_ne_nil (splitAt_ne_nil mark rest)
        rw [splitAt_cons_of_ne same split] at member
        rcases List.mem_cons.mp member with rfl | later
        · have plain := ih (split ▸ List.mem_cons_self)
          simp [plain, Ne.symm same]
        · exact ih (split ▸ List.mem_cons_of_mem _ later)

theorem splitAt_of_not_mem {cs : List Char} (plain : mark ∉ cs) : splitAt mark cs = [cs] := by
  induction cs with
  | nil => rfl
  | cons c rest ih =>
      rw [List.mem_cons, not_or] at plain
      exact splitAt_cons_of_ne (Ne.symm plain.1) (ih plain.2)

theorem splitAt_append {front : List Char} (rest : List Char) (plain : mark ∉ front)
    : splitAt mark (front ++ mark :: rest) = front :: splitAt mark rest := by
  induction front with
  | nil => exact splitAt_mark mark rest
  | cons c front ih =>
      rw [List.mem_cons, not_or] at plain
      exact splitAt_cons_of_ne (Ne.symm plain.1) (ih plain.2)

/-- A mark cuts a text into the parts before it and those behind it, by induction on the text before
it.
-/
theorem splitAt_append_mark (front rest : List Char)
    : splitAt mark (front ++ mark :: rest) = splitAt mark front ++ splitAt mark rest := by
  induction front with
  | nil => exact splitAt_mark mark rest
  | cons c front ih =>
      by_cases same : c = mark
      · rw [same, List.cons_append, splitAt_mark, splitAt_mark, ih, List.cons_append]
      · obtain ⟨first, more, split⟩ := List.exists_cons_of_ne_nil (splitAt_ne_nil mark front)
        rw [split, List.cons_append] at ih
        rw [splitAt_cons_of_ne same split, List.cons_append, List.cons_append]
        exact splitAt_cons_of_ne same ih

theorem joinWith_cons_cons (first second : List Char) (rest : List (List Char))
    : joinWith mark (first :: second :: rest)
      = first ++ mark :: joinWith mark (second :: rest) := by
  simp [joinWith, List.intercalate]

/-- Parts without the mark come out again, by induction on the parts. -/
theorem splitAt_joinWith {parts : List (List Char)} (some : parts ≠ [])
    (plain : ∀ part ∈ parts, mark ∉ part) : splitAt mark (joinWith mark parts) = parts := by
  induction parts with
  | nil => exact absurd rfl some
  | cons first more ih =>
      have head := plain first List.mem_cons_self
      cases more with
      | nil => simpa [joinWith] using splitAt_of_not_mem head
      | cons second rest =>
          rw [joinWith_cons_cons, splitAt_append _ head, ih (List.cons_ne_nil _ _)]
          exact fun part member => plain part (List.mem_cons_of_mem _ member)

theorem mem_joinWith {parts : List (List Char)} {part : List Char} {c : Char}
    (member : part ∈ parts) (inside : c ∈ part) : c ∈ joinWith mark parts := by
  induction parts with
  | nil => cases member
  | cons first more ih =>
      cases more with
      | nil =>
          obtain rfl := List.mem_singleton.mp member
          simpa [joinWith] using inside
      | cons second rest =>
          rw [joinWith_cons_cons]
          rcases List.mem_cons.mp member with rfl | later
          · exact List.mem_append_left _ inside
          · exact List.mem_append_right _ (List.mem_cons_of_mem _ (ih later))

/-- A text that is not empty and has no mark is put together from itself only. -/
theorem eq_singleton_of_joinWith {parts : List (List Char)} {cs : List Char} (some : cs ≠ [])
    (plain : mark ∉ cs) (joined : joinWith mark parts = cs) : parts = [cs] := by
  have several : parts ≠ [] := by
    rintro rfl
    exact some joined.symm
  have each : ∀ part ∈ parts, mark ∉ part := fun part member inside =>
    plain (joined ▸ mem_joinWith member inside)
  rw [← splitAt_joinWith several each, joined, splitAt_of_not_mem plain]

theorem eq_nil_of_joinWith {parts : List (List Char)} (some : ∀ part ∈ parts, part ≠ [])
    (none : joinWith mark parts = []) : parts = [] := by
  cases parts with
  | nil => rfl
  | cons first more =>
      obtain ⟨c, rest, rfl⟩ := List.exists_cons_of_ne_nil (some first List.mem_cons_self)
      have inside : c ∈ joinWith mark ((c :: rest) :: more) :=
        mem_joinWith List.mem_cons_self List.mem_cons_self
      rw [none] at inside
      cases inside

/-- Parts that are not empty and have no mark are told by the text that they make up. -/
theorem joinWith_inj {parts others : List (List Char)}
    (some : ∀ part ∈ parts, part ≠ []) (plain : ∀ part ∈ parts, mark ∉ part)
    (someToo : ∀ part ∈ others, part ≠ []) (plainToo : ∀ part ∈ others, mark ∉ part)
    (same : joinWith mark parts = joinWith mark others) : parts = others := by
  by_cases none : parts = []
  · rw [none]
    exact (eq_nil_of_joinWith someToo (by rw [← same, none]; rfl)).symm
  by_cases noneToo : others = []
  · rw [noneToo]
    exact eq_nil_of_joinWith some (by rw [same, noneToo]; rfl)
  rw [← splitAt_joinWith none plain, same, splitAt_joinWith noneToo plainToo]

end DocPipeline.Text
