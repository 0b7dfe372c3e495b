import DocPipeline.Proofs.Yaml.Token

/-! The tokens of a written tree. Its layout opens a block for every record and for every list that
no key stands before, and what follows ends them again.
-/

namespace DocPipeline.Yaml

open Scanner
open Writer (spaces value listFrom itemFrom recordFrom)

-----------------------------------------------------------------------------------------
-- Trees and their tokens
-----------------------------------------------------------------------------------------

mutual

/-- All fields in the tree have names that can be written as keys. -/
def Tree.Keyed : Tree → Prop
  | .text _ => True
  | .list items => ItemsKeyed items
  | .record fields => FieldsKeyed fields

/-- All items are such trees. -/
def Tree.ItemsKeyed : List Tree → Prop
  | [] => True
  | item :: items => item.Keyed ∧ ItemsKeyed items

/-- All fields have such names and values. -/
def Tree.FieldsKeyed : List (String × Tree) → Prop
  | [] => True
  | (key, tree) :: fields => IsKey key.toList ∧ tree.Keyed ∧ FieldsKeyed fields

end

mutual

/-- The tokens of a tree; a list behind a key needs no marks around it. -/
def Tree.kinds (behindKey : Bool) : Tree → List Token.Kind
  | .text t => [.scalar t.toList (styleOf t)]
  | .list [] => [.flowSequenceStart, .flowSequenceEnd]
  | .list (item :: items) =>
    if behindKey then itemsKinds (item :: items)
    else .blockSequenceStart :: itemsKinds (item :: items) ++ [.blockEnd]
  | .record [] => [.flowMappingStart, .flowMappingEnd]
  | .record (field :: fields) => .blockMappingStart :: fieldsKinds (field :: fields) ++ [.blockEnd]

/-- The tokens of items, each behind its dash. -/
def Tree.itemsKinds : List Tree → List Token.Kind
  | [] => []
  | item :: items => .blockEntry :: kinds false item ++ itemsKinds items

/-- The tokens of fields, each with its key. -/
def Tree.fieldsKinds : List (String × Tree) → List Token.Kind
  | [] => []
  | (key, tree) :: fields =>
    .key :: .scalar key.toList .plain :: .value :: kinds true tree ++ fieldsKinds fields

end

-----------------------------------------------------------------------------------------
-- Text between tokens
-----------------------------------------------------------------------------------------

theorem recordFrom_cons (column : Nat) (key : String) (tree : Tree) (fields : List (String × Tree))
    (rest : List Char)
    : recordFrom column false ((key, tree) :: fields) ++ rest
      = key.toList ++ ':' :: (value column tree ++ (recordFrom column true fields ++ rest)) := by
  simp [recordFrom]

theorem recordFrom_indented (column : Nat) (field : String × Tree)
    (fields : List (String × Tree)) (rest : List Char)
    : recordFrom column true (field :: fields) ++ rest
      = spaces column ++ (recordFrom column false (field :: fields) ++ rest) := by
  simp [recordFrom]

theorem listFrom_cons (column : Nat) (item : Tree) (items : List Tree) (rest : List Char)
    : listFrom column (item :: items) ++ rest
      = spaces column ++ '-' :: (itemFrom column item ++ (listFrom column items ++ rest)) := by
  simp [listFrom]

theorem endsWord_value (column : Nat) (tree : Tree) (rest : List Char)
    : endsWord (value column tree ++ rest) = true := by
  match tree with
  | .text _ => rfl
  | .list [] => rfl
  | .list (_ :: _) => rfl
  | .record [] => rfl
  | .record (_ :: _) => rfl

theorem endsWord_itemFrom (column : Nat) (tree : Tree) (rest : List Char)
    : endsWord (itemFrom column tree ++ rest) = true := by
  match tree with
  | .text _ => rfl
  | .list [] => rfl
  | .list (_ :: _) => rfl
  | .record [] => rfl
  | .record (_ :: _) => rfl

theorem isContent_recordFrom {fields : List (String × Tree)} (keyed : Tree.FieldsKeyed fields)
    (nonempty : fields ≠ []) (n column : Nat) (rest : List Char)
    : IsContent n (recordFrom column false fields ++ rest) := by
  cases fields with
  | nil => exact absurd rfl nonempty
  | cons field fields =>
      obtain ⟨key, tree⟩ := field
      rw [recordFrom_cons]
      obtain ⟨known, _, _⟩ := keyed
      cases parts : key.toList with
      | nil => exact absurd parts known.nonempty
      | cons c cs =>
          have plain := known.plain c (by rw [parts]; exact List.mem_cons_self)
          exact ⟨isSpacing_of_isKeyChar plain, isBreak_of_isKeyChar plain,
            ne_of_isKeyChar plain (by decide), ne_of_isKeyChar plain (by decide)⟩

theorem isContent_dash (n : Nat) (rest : List Char) : IsContent n ('-' :: rest) :=
  ⟨by decide, by decide, by decide, by decide⟩

-----------------------------------------------------------------------------------------
-- Reading a tree
-----------------------------------------------------------------------------------------

theorem opened_fst {kind : Token.Kind} {column : Nat} {margins : List Nat}
    (fits : margins.headD 0 ≤ column + 1)
    : ∃ others, (opened kind column margins).1 = (column + 1) :: others := by
  unfold opened
  split
  next => exact ⟨margins, rfl⟩
  next same =>
    cases margins with
    | nil => exact absurd (Nat.succ_pos column) same
    | cons margin margins =>
        change margin ≤ column + 1 at fits
        change ¬margin < column + 1 at same
        exact ⟨margins, by rw [Nat.le_antisymm fits (Nat.not_lt.mp same)]⟩

theorem opened_same (kind : Token.Kind) (column : Nat) (margins : List Nat)
    : opened kind column ((column + 1) :: margins) = ((column + 1) :: margins, []) := by
  simp [opened]

theorem opened_deeper (kind : Token.Kind) {column margin : Nat} (margins : List Nat)
    (deeper : margin < column + 1)
    : opened kind column (margin :: margins) = ((column + 1) :: margin :: margins, [kind]) := by
  simp [opened, deeper]

/-- A block two columns further in ends where the line is no deeper than the outer one. -/
theorem Scanner.Lands.close_opened {s : Scanner} {column n : Nat} {line : List Char}
    {margins : List Nat} {kinds inner : List Token.Kind} {kind : Token.Kind}
    (lands : Lands s n line (opened kind (column + 2) ((column + 1) :: margins)).1
      (kinds ++ (opened kind (column + 2) ((column + 1) :: margins)).2 ++ inner))
    (outside : n ≤ column)
    : Lands s n line ((column + 1) :: margins) (kinds ++ (kind :: inner ++ [.blockEnd])) := by
  rw [opened_deeper kind margins (by omega)] at lands
  have closed := lands.close (by omega)
  simpa using closed

theorem Scanner.Lands.enters_item {s : Scanner} {column : Nat} {tree : Tree} {rest : List Char}
    {margins : List Nat} {kinds : List Token.Kind}
    (lands : Lands s column ('-' :: (itemFrom column tree ++ rest)) margins kinds)
    (fits : margins.headD 0 ≤ column + 1)
    : ∃ t others, (opened .blockSequenceStart column margins).1 = (column + 1) :: others
      ∧ Reads s t
      ∧ Stands t (column + 1) (itemFrom column tree ++ rest) ((column + 1) :: others)
          (kinds ++ (opened .blockSequenceStart column margins).2 ++ [.blockEntry]) true := by
  obtain ⟨others, margin⟩ := @opened_fst .blockSequenceStart column margins fits
  obtain ⟨t, first, stands⟩ := lands.reads_dash (endsWord_itemFrom _ _ _) fits
  rw [margin] at stands
  exact ⟨t, others, margin, first, stands⟩

theorem Scanner.Lands.enters_field {s : Scanner} {column : Nat} {key : String} {tree : Tree}
    {rest : List Char} {margins : List Nat} {kinds : List Token.Kind} (known : IsKey key.toList)
    (lands : Lands s column (key.toList ++ ':' :: (Writer.value column tree ++ rest)) margins kinds)
    (fits : margins.headD 0 ≤ column + 1)
    : ∃ t others, (opened .blockMappingStart column margins).1 = (column + 1) :: others
      ∧ Reads s t ∧ ∃ place, column + 1 ≤ place
      ∧ Stands t place (Writer.value column tree ++ rest) ((column + 1) :: others)
          (kinds ++ (opened .blockMappingStart column margins).2
            ++ [.key, .scalar key.toList .plain, .value]) false := by
  obtain ⟨others, margin⟩ := @opened_fst .blockMappingStart column margins fits
  obtain ⟨t, first, stands⟩ := lands.reads_key known (endsWord_value _ _ _) fits
  rw [margin] at stands
  exact ⟨t, others, margin, first, _, by omega, stands⟩

mutual

/-- A value behind its key is read up to the next line that lies no deeper than the key. -/
theorem reads_value {s : Scanner} {place column n : Nat} {line : List Char} {margins : List Nat}
    {kinds : List Token.Kind} (tree : Tree) (keyed : tree.Keyed)
    (stands : Stands s place (value column tree ++ (spaces n ++ line)) ((column + 1) :: margins)
      kinds false)
    (behind : column + 1 ≤ place) (content : IsContent n line) (outside : n ≤ column)
    : ∃ t, Reads s t ∧ Lands t n line ((column + 1) :: margins) (kinds ++ tree.kinds true) := by
  have inside : n ≤ column + 2 := Nat.le_add_right_of_le outside
  match tree with
  | .text text =>
      exact stands.reads_scalar (Nat.succ_pos column) behind content (Nat.lt_succ_of_le outside)
  | .list [] => exact stands.reads_empty isBrackets_sequence behind content
  | .list (item :: items) =>
      rw [Writer.value, List.cons_append, listFrom_cons] at stands
      have lands := stands.lands_newline (isContent_dash column _)
      obtain ⟨t, read, last⟩ := reads_items item items keyed lands (Nat.le_refl _) content outside
      rw [opened_same, List.append_nil] at last
      exact ⟨t, read, last⟩
  | .record [] => exact stands.reads_empty isBrackets_mapping behind content
  | .record ((key, tree) :: fields) =>
      rw [Writer.value, List.cons_append, recordFrom_indented] at stands
      have lands := stands.lands_newline (isContent_recordFrom keyed (List.cons_ne_nil _ _) _ _ _)
      obtain ⟨t, read, last⟩ := reads_fields key tree fields keyed lands
        (Nat.le_succ_of_le (Nat.le_succ (column + 1))) content inside
      exact ⟨t, read, last.close_opened outside⟩
termination_by sizeOf tree

/-- An item behind its dash is read up to the next line that lies no deeper than the dash. -/
theorem reads_item {s : Scanner} {column n : Nat} {line : List Char} {margins : List Nat}
    {kinds : List Token.Kind} (tree : Tree) (keyed : tree.Keyed)
    (stands : Stands s (column + 1) (itemFrom column tree ++ (spaces n ++ line))
      ((column + 1) :: margins) kinds true)
    (content : IsContent n line) (outside : n ≤ column)
    : ∃ t, Reads s t ∧ Lands t n line ((column + 1) :: margins) (kinds ++ tree.kinds false) := by
  have inside : n ≤ column + 2 := Nat.le_add_right_of_le outside
  match tree with
  | .text text =>
      exact stands.reads_scalar (Nat.succ_pos column) (Nat.le_refl _) content
        (Nat.lt_succ_of_le outside)
  | .list [] => exact stands.reads_empty isBrackets_sequence (Nat.le_refl _) content
  | .list (item :: items) =>
      rw [itemFrom, List.cons_append, listFrom_cons] at stands
      have lands := stands.lands_newline (isContent_dash (column + 2) _)
      obtain ⟨t, read, last⟩ := reads_items item items keyed lands
        (Nat.le_succ_of_le (Nat.le_succ (column + 1))) content inside
      exact ⟨t, read, last.close_opened outside⟩
  | .record [] => exact stands.reads_empty isBrackets_mapping (Nat.le_refl _) content
  | .record ((key, tree) :: fields) =>
      rw [itemFrom, List.cons_append] at stands
      have lands := stands.lands_space (isContent_recordFrom keyed (List.cons_ne_nil _ _) _ _ _)
      obtain ⟨t, read, last⟩ := reads_fields key tree fields keyed lands
        (Nat.le_succ_of_le (Nat.le_succ (column + 1))) content inside
      exact ⟨t, read, last.close_opened outside⟩
termination_by sizeOf tree

/-- Items are read up to the next line that lies no deeper than their dashes. -/
theorem reads_items {s : Scanner} {column n : Nat} {line : List Char} {margins : List Nat}
    {kinds : List Token.Kind} (item : Tree) (items : List Tree)
    (keyed : Tree.ItemsKeyed (item :: items))
    (lands : Lands s column
      ('-' :: (itemFrom column item ++ (listFrom column items ++ (spaces n ++ line)))) margins
      kinds)
    (fits : margins.headD 0 ≤ column + 1) (content : IsContent n line) (outside : n ≤ column)
    : ∃ t, Reads s t
      ∧ Lands t n line (opened .blockSequenceStart column margins).1
          (kinds ++ (opened .blockSequenceStart column margins).2
            ++ Tree.itemsKinds (item :: items)) := by
  match items with
  | [] =>
      obtain ⟨t, others, margin, first, stands⟩ := lands.enters_item fits
      obtain ⟨u, second, last⟩ := reads_item item keyed.1 stands content outside
      rw [margin]
      exact ⟨u, first.trans second, by simpa [Tree.itemsKinds] using last⟩
  | next :: items =>
      rw [listFrom_cons] at lands
      obtain ⟨t, others, margin, first, stands⟩ := lands.enters_item fits
      obtain ⟨u, second, behind⟩ := reads_item item keyed.1 stands (isContent_dash column _)
        (Nat.le_refl column)
      obtain ⟨v, third, last⟩ := reads_items next items keyed.2 behind (Nat.le_refl _) content
        outside
      rw [opened_same, List.append_nil] at last
      rw [margin]
      exact ⟨v, (first.trans second).trans third, by simpa [Tree.itemsKinds] using last⟩
termination_by sizeOf item + sizeOf items

/-- Fields are read up to the next line that lies no deeper than their keys. -/
theorem reads_fields {s : Scanner} {column n : Nat} {line : List Char} {margins : List Nat}
    {kinds : List Token.Kind} (key : String) (tree : Tree) (fields : List (String × Tree))
    (keyed : Tree.FieldsKeyed ((key, tree) :: fields))
    (lands : Lands s column (recordFrom column false ((key, tree) :: fields) ++ (spaces n ++ line))
      margins kinds)
    (fits : margins.headD 0 ≤ column + 1) (content : IsContent n line) (outside : n ≤ column)
    : ∃ t, Reads s t
      ∧ Lands t n line (opened .blockMappingStart column margins).1
          (kinds ++ (opened .blockMappingStart column margins).2
            ++ Tree.fieldsKinds ((key, tree) :: fields)) := by
  match fields with
  | [] =>
      rw [recordFrom_cons] at lands
      obtain ⟨t, others, margin, first, place, behind, stands⟩ := lands.enters_field keyed.1 fits
      obtain ⟨u, second, last⟩ := reads_value tree keyed.2.1 stands behind content outside
      rw [margin]
      exact ⟨u, first.trans second, by simpa [Tree.fieldsKinds] using last⟩
  | (next, field) :: fields =>
      rw [recordFrom_cons, recordFrom_indented] at lands
      obtain ⟨t, others, margin, first, place, behind, stands⟩ := lands.enters_field keyed.1 fits
      obtain ⟨u, second, below⟩ := reads_value tree keyed.2.1 stands behind
        (isContent_recordFrom keyed.2.2 (List.cons_ne_nil _ _) _ _ _) (Nat.le_refl column)
      obtain ⟨v, third, last⟩ := reads_fields next field fields keyed.2.2 below (Nat.le_refl _)
        content outside
      rw [opened_same, List.append_nil] at last
      rw [margin]
      exact ⟨v, (first.trans second).trans third, by simpa [Tree.fieldsKinds] using last⟩
termination_by sizeOf tree + sizeOf fields

end

-----------------------------------------------------------------------------------------
-- Whole documents
-----------------------------------------------------------------------------------------

/-- A written record scans to its tokens. -/
theorem scan_recordFrom {fields : List (String × Tree)} (keyed : Tree.FieldsKeyed fields)
    (nonempty : fields ≠ [])
    : ∃ tokens, Token.scan (recordFrom 0 true fields) = .ok tokens
      ∧ tokens.map (·.kind) = (Tree.record fields).kinds false ++ [.streamEnd] := by
  cases fields with
  | nil => exact absurd rfl nonempty
  | cons field fields =>
      obtain ⟨key, tree⟩ := field
      let text := recordFrom 0 false ((key, tree) :: fields)
      have begins : Lands (initial text) 0 (text ++ (spaces 0 ++ [])) [] [] := by
        refine ⟨rfl, ⟨.start, rfl, ?_, ?_⟩, [], rfl, by simp, rfl⟩
        · intro key member
          cases member
        · have content := isContent_recordFrom keyed nonempty 0 0 []
          rw [List.append_nil] at content
          rw [show spaces 0 ++ [] = [] from rfl, List.append_nil]
          exact toNextToken_content content false true .start
      obtain ⟨t, read, last⟩ := reads_fields key tree fields keyed begins (Nat.zero_le _) rfl
        (Nat.le_refl 0)
      obtain ⟨more, left, same⟩ := read (text.length + 1) (Nat.lt_succ_self _)
      obtain ⟨tokens, done, kinds⟩ := last.run_eq (Nat.zero_lt_of_lt left)
      exact ⟨tokens, same.trans done, by simpa [opened, Tree.kinds] using kinds⟩

end DocPipeline.Yaml
