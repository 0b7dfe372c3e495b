import DocPipeline.Proofs.Yaml.Parse

/-! Written documents are read. Every character of one may stand in a document, its tokens are
parsed to nodes that spell what was written, and these have no anchors that could be tied.
-/

namespace DocPipeline.Yaml

open Writer

-----------------------------------------------------------------------------------------
-- The characters of a document
-----------------------------------------------------------------------------------------

/-- Every character of the text may stand in a document. -/
def Allowed (cs : List Char) : Prop :=
  ∀ c ∈ cs, isAllowed c = true

theorem allowed_nil : Allowed [] := by
  intro c member
  cases member

theorem allowed_cons {c : Char} {cs : List Char} (first : isAllowed c = true) (rest : Allowed cs)
    : Allowed (c :: cs) :=
  List.forall_mem_cons.mpr ⟨first, rest⟩

theorem allowed_append {front back : List Char} (first : Allowed front) (rest : Allowed back)
    : Allowed (front ++ back) :=
  List.forall_mem_append.mpr ⟨first, rest⟩

theorem allowed_spaces (n : Nat) : Allowed (spaces n) := by
  intro c member
  rw [List.eq_of_mem_replicate member]
  rfl

theorem allowed_ite {p : Prop} [Decidable p] {first second : List Char} (yes : Allowed first)
    (no : Allowed second) : Allowed (if p then first else second) := by
  split
  · exact yes
  · exact no

theorem allowed_singleFrom {indent : Nat} {cs : List Char} (allowed : Allowed cs) (fresh : Bool)
    : Allowed (singleFrom indent fresh cs) := by
  induction cs generalizing fresh with
  | nil => exact allowed_ite (allowed_spaces indent) allowed_nil
  | cons c cs ih =>
      obtain ⟨first, rest⟩ := List.forall_mem_cons.mp allowed
      have indentation := @allowed_ite (fresh = true) _ _ _ (allowed_spaces indent) allowed_nil
      have quote := allowed_cons (show isAllowed '\'' = true by rfl)
        (allowed_cons (show isAllowed '\'' = true by rfl) allowed_nil)
      rw [singleFrom]
      refine allowed_ite (allowed_cons first (ih rest true)) ?_
      exact allowed_append (allowed_append indentation
        (allowed_ite quote (allowed_cons first allowed_nil))) (ih rest false)

theorem allowed_blockLines {indent : Nat} {cs : List Char} (allowed : Allowed cs) (fresh : Bool)
    : Allowed (blockLines indent fresh cs) := by
  induction cs generalizing fresh with
  | nil => exact allowed_nil
  | cons c cs ih =>
      obtain ⟨first, rest⟩ := List.forall_mem_cons.mp allowed
      have indentation := @allowed_ite (fresh = true) _ _ _ (allowed_spaces indent) allowed_nil
      rw [blockLines]
      refine allowed_ite (allowed_cons first (ih rest true)) ?_
      exact allowed_append indentation (allowed_cons first (ih rest false))

theorem isAllowed_hexDigit {n : Nat} (small : n < 16) : isAllowed (hexDigit n) = true := by
  have all : ∀ n, n < 16 → isAllowed (hexDigit n) = true := by decide
  exact all n small

theorem allowed_hexDigits (n width : Nat) : Allowed (hexDigits n width) := by
  induction width generalizing n with
  | zero => exact allowed_nil
  | succ width ih =>
      exact allowed_append (ih (n / 16))
        (allowed_cons (isAllowed_hexDigit (Nat.mod_lt n (by decide))) allowed_nil)

theorem allowed_escaped (c : Char) : Allowed (escaped c) := by
  unfold escaped
  refine allowed_cons (by rfl) ?_
  iterate 14 refine allowed_ite (allowed_cons (by rfl) allowed_nil) ?_
  refine allowed_ite (allowed_cons (by rfl) (allowed_hexDigits _ 2)) ?_
  exact allowed_ite (allowed_cons (by rfl) (allowed_hexDigits _ 4))
    (allowed_cons (by rfl) (allowed_hexDigits _ 8))

theorem allowed_doubleChar (c : Char) : Allowed (doubleChar c) := by
  unfold doubleChar
  split
  next => exact allowed_escaped c
  next itself =>
    have printable : isPrintable c = true := by
      cases known : isPrintable c with
      | true => rfl
      | false => simp [known] at itself
    exact allowed_cons (isAllowed_of_isPrintable printable) allowed_nil

theorem allowed_flatMap {write : Char → List Char} (each : ∀ c, Allowed (write c))
    (cs : List Char) : Allowed (cs.flatMap write) := by
  intro c member
  obtain ⟨d, _, inside⟩ := List.mem_flatMap.mp member
  exact each d c inside

theorem allowed_blockHeader (cs : List Char) : Allowed (blockHeader cs) := by
  have hint := @allowed_ite (Scalar.hidesIndentation cs = true) _ ['2'] []
    (allowed_cons (by rfl) allowed_nil) allowed_nil
  have indicator : Allowed (Scalar.chompingOf cs).indicator := by
    cases Scalar.chompingOf cs with
    | strip => exact allowed_cons (by rfl) allowed_nil
    | clip => exact allowed_nil
    | keep => exact allowed_cons (by rfl) allowed_nil
  rw [Scalar.blockHeader_eq]
  exact allowed_cons (by rfl) (allowed_append hint indicator)

theorem allowed_scalar (indent : Nat) (s : String) : Allowed (scalar indent s) := by
  have itself (noEscapes : formOf s ≠ .double) : Allowed s.toList := fun c member =>
    isAllowed_of_isPrintable (isPrintable_of_formOf noEscapes c member)
  have newline := allowed_cons (show isAllowed '\n' = true by rfl) allowed_nil
  unfold scalar
  cases form : formOf s with
  | plain => exact allowed_append (itself (by simp [form])) newline
  | single =>
      exact allowed_cons (by rfl) (allowed_append
        (allowed_singleFrom (itself (by simp [form])) false) (allowed_cons (by rfl) newline))
  | double =>
      exact allowed_cons (by rfl) (allowed_append (allowed_flatMap allowed_doubleChar _)
        (allowed_cons (by rfl) newline))
  | block =>
      exact allowed_append (allowed_append (allowed_blockHeader _) (allowed_cons (by rfl)
        (allowed_blockLines (itself (by simp [form])) true))) (allowed_ite allowed_nil newline)

theorem allowed_brackets {c d : Char} (first : isAllowed c = true) (last : isAllowed d = true)
    : Allowed [' ', c, d, '\n'] :=
  allowed_cons (by rfl) (allowed_cons first (allowed_cons last (allowed_cons (by rfl) allowed_nil)))

mutual

theorem allowed_value (indent : Nat) (tree : Tree) (keyed : tree.Keyed)
    : Allowed (value indent tree) := by
  match tree with
  | .text s => exact allowed_cons (by rfl) (allowed_scalar (indent + 2) s)
  | .list [] => exact allowed_brackets (by rfl) (by rfl)
  | .list (item :: items) =>
      exact allowed_cons (by rfl) (allowed_listFrom indent (item :: items) keyed)
  | .record [] => exact allowed_brackets (by rfl) (by rfl)
  | .record (field :: fields) =>
      exact allowed_cons (by rfl) (allowed_recordFrom (indent + 2) true (field :: fields) keyed)

theorem allowed_listFrom (indent : Nat) (items : List Tree) (keyed : Tree.ItemsKeyed items)
    : Allowed (listFrom indent items) := by
  match items with
  | [] => exact allowed_nil
  | item :: items =>
      rw [listFrom]
      exact allowed_append (allowed_append (allowed_spaces indent)
        (allowed_cons (by rfl) (allowed_itemFrom indent item keyed.1)))
        (allowed_listFrom indent items keyed.2)

theorem allowed_itemFrom (indent : Nat) (tree : Tree) (keyed : tree.Keyed)
    : Allowed (itemFrom indent tree) := by
  match tree with
  | .text s => exact allowed_cons (by rfl) (allowed_scalar (indent + 2) s)
  | .list [] => exact allowed_brackets (by rfl) (by rfl)
  | .list (item :: items) =>
      exact allowed_cons (by rfl) (allowed_listFrom (indent + 2) (item :: items) keyed)
  | .record [] => exact allowed_brackets (by rfl) (by rfl)
  | .record (field :: fields) =>
      exact allowed_cons (by rfl) (allowed_recordFrom (indent + 2) false (field :: fields) keyed)

theorem allowed_recordFrom (indent : Nat) (indentFirst : Bool) (fields : List (String × Tree))
    (keyed : Tree.FieldsKeyed fields) : Allowed (recordFrom indent indentFirst fields) := by
  match fields with
  | [] => exact allowed_nil
  | (key, tree) :: fields =>
      obtain ⟨known, treeKeyed, fieldsKeyed⟩ := keyed
      have name : Allowed key.toList := fun c member =>
        isAllowed_of_isKeyChar (known.plain c member)
      rw [recordFrom]
      exact allowed_append (allowed_append
        (allowed_append (allowed_ite (allowed_spaces indent) allowed_nil) name)
        (allowed_cons (by rfl) (allowed_value indent tree treeKeyed)))
        (allowed_recordFrom indent true fields fieldsKeyed)

end

-----------------------------------------------------------------------------------------
-- Anchors and the whole document
-----------------------------------------------------------------------------------------

namespace Node

mutual

/-- Nodes that spell a tree are linked as they are. -/
theorem link_of_spells {node : Node String} {tree : Tree} (anchors : Anchors)
    (spells : Spells node tree)
    : ∃ linked, link anchors node = .ok (linked, anchors) ∧ Spells linked tree := by
  cases spells with
  | text s mark => exact ⟨_, rfl, .text s mark⟩
  | list mark each =>
      obtain ⟨nodes, done, same⟩ := linkItems_of_spells anchors each
      refine ⟨.sequence bare nodes mark, ?_, .list mark same⟩
      unfold link
      simp only [linkProperties, bare, done]
      rfl
  | record mark each =>
      obtain ⟨entries, done, same⟩ := linkEntries_of_spells anchors each
      refine ⟨.mapping bare entries mark, ?_, .record mark same⟩
      unfold link
      simp only [linkProperties, bare, done]
      rfl
termination_by sizeOf tree

theorem linkItems_of_spells {nodes : List (Node String)} {items : List Tree} (anchors : Anchors)
    (spells : SpellsItems nodes items)
    : ∃ linked, linkItems anchors nodes = .ok (linked, anchors) ∧ SpellsItems linked items := by
  cases spells with
  | nil => exact ⟨[], rfl, .nil⟩
  | cons head tail =>
      obtain ⟨node, first, same⟩ := link_of_spells anchors head
      obtain ⟨nodes, done, others⟩ := linkItems_of_spells anchors tail
      refine ⟨node :: nodes, ?_, .cons same others⟩
      rw [linkItems, first, Except.ok_bind]
      dsimp only
      rw [done]
      rfl
termination_by sizeOf items

theorem linkEntries_of_spells {entries : List (Node String × Node String)}
    {fields : List (String × Tree)} (anchors : Anchors) (spells : SpellsFields entries fields)
    : ∃ linked, linkEntries anchors entries = .ok (linked, anchors)
      ∧ SpellsFields linked fields := by
  cases spells with
  | nil => exact ⟨[], rfl, .nil⟩
  | cons key mark value tail =>
      obtain ⟨node, first, same⟩ := link_of_spells anchors value
      obtain ⟨others, done, rest⟩ := linkEntries_of_spells anchors tail
      refine ⟨(.scalar bare key .plain mark, node) :: others, ?_, .cons key mark same rest⟩
      have name : link anchors (.scalar bare key .plain mark)
          = .ok (.scalar bare key .plain mark, anchors) := rfl
      rw [linkEntries, name, Except.ok_bind]
      dsimp only
      rw [first, Except.ok_bind]
      dsimp only
      rw [done]
      rfl
termination_by sizeOf fields

end

end Node

/-- A written document is read, and its root spells the record that was written. -/
theorem Document.ofText_document {fields : List (String × Tree)} (keyed : Tree.FieldsKeyed fields)
    (nonempty : fields ≠ [])
    : ∃ document, Document.ofText (Writer.document fields) = .ok document
      ∧ document.root.Spells (.record fields) := by
  have fit : (recordFrom 0 true fields).find? (fun c => !isAllowed c) = none := by
    refine List.find?_eq_none.mpr fun c member => ?_
    simp [allowed_recordFrom 0 true fields keyed c member]
  obtain ⟨tokens, scanned, kinds⟩ := scan_recordFrom keyed nonempty
  obtain ⟨node, parsed, written⟩ := Node.ofTokens_kinds nonempty kinds
  obtain ⟨root, linked, spells⟩ := Node.link_of_spells [] written
  refine ⟨⟨root, root.anchored⟩, ?_, spells⟩
  unfold Document.ofText Writer.document
  rw [String.toList_ofList]
  dsimp only
  rw [fit]
  dsimp only
  rw [scanned, Except.ok_bind, parsed, Except.ok_bind, linked]
  rfl

end DocPipeline.Yaml
