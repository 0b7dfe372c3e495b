import DocPipeline.Proofs.Yaml.Layout
import DocPipeline.Yaml.Document

/-! The nodes that the tokens of a tree are parsed to. A node spells a tree when it has its shape
and its texts, each in the style in which it is written, and neither tags, anchors nor aliases.
-/

namespace DocPipeline.Yaml

open Scanner (styleOf)

-----------------------------------------------------------------------------------------
-- Nodes that spell trees
-----------------------------------------------------------------------------------------

mutual

/-- The node spells the tree. -/
inductive Node.Spells {ρ : Type} : Node ρ → Tree → Prop
  | text (s : String) (mark : Mark) : Spells (.scalar bare s (styleOf s) mark) (.text s)
  | list {nodes : List (Node ρ)} {items : List Tree} (mark : Mark) (each : SpellsItems nodes items)
    : Spells (.sequence bare nodes mark) (.list items)
  | record {entries : List (Node ρ × Node ρ)} {fields : List (String × Tree)} (mark : Mark)
      (each : SpellsFields entries fields)
    : Spells (.mapping bare entries mark) (.record fields)

/-- The nodes spell the items, one by one. -/
inductive Node.SpellsItems {ρ : Type} : List (Node ρ) → List Tree → Prop
  | nil : SpellsItems [] []
  | cons {node : Node ρ} {nodes : List (Node ρ)} {item : Tree} {items : List Tree}
      (head : Spells node item) (tail : SpellsItems nodes items)
    : SpellsItems (node :: nodes) (item :: items)

/-- The entries spell the fields, one by one. -/
inductive Node.SpellsFields {ρ : Type} : List (Node ρ × Node ρ) → List (String × Tree) → Prop
  | nil : SpellsFields [] []
  | cons {node : Node ρ} {entries : List (Node ρ × Node ρ)} {tree : Tree}
      {fields : List (String × Tree)} (key : String) (mark : Mark) (value : Spells node tree)
      (tail : SpellsFields entries fields)
    : SpellsFields ((.scalar bare key .plain mark, node) :: entries) ((key, tree) :: fields)

end

-----------------------------------------------------------------------------------------
-- Tokens of a known kind
-----------------------------------------------------------------------------------------

/-- The kinds of tokens. -/
def Token.kinds (tokens : List Token) : List Token.Kind :=
  tokens.map (·.kind)

theorem Token.exists_of_kinds_cons {tokens : List Token} {kind : Token.Kind}
    {more : List Token.Kind} (known : kinds tokens = kind :: more)
    : ∃ start stop rest, tokens = ⟨kind, start, stop⟩ :: rest ∧ kinds rest = more := by
  obtain ⟨⟨_, start, stop⟩, rest, rfl, rfl, same⟩ := List.map_eq_cons_iff.mp known
  exact ⟨start, stop, rest, rfl, same⟩

theorem Token.length_le_of_kinds {tokens rest : List Token} {front more : List Token.Kind}
    (known : kinds tokens = front ++ more) (same : kinds rest = more)
    : rest.length ≤ tokens.length := by
  have whole := congrArg List.length known
  have part := congrArg List.length same
  simp only [kinds, List.length_map, List.length_append] at whole part
  omega

namespace Node

variable {handles : Handles} {fuel : Nat} {start stop : Mark} {tokens rest : List Token}

theorem parse_scalar (block indentless : Bool) (text : String) (style : Style)
    : parse handles block indentless (fuel + 1) (⟨.scalar text.toList style, start, stop⟩ :: rest)
      = .ok (.scalar bare text style start, rest) := by
  have parsed : parse handles block indentless (fuel + 1)
      (⟨.scalar text.toList style, start, stop⟩ :: rest)
      = .ok (.scalar bare (String.ofList text.toList) style start, rest) := rfl
  rwa [String.ofList_toList] at parsed

theorem parse_emptySequence (block indentless : Bool) (last final : Mark)
    : parse handles block indentless (fuel + 2)
        (⟨.flowSequenceStart, start, stop⟩ :: ⟨.flowSequenceEnd, last, final⟩ :: rest)
      = .ok (.sequence bare [] start, rest) := by
  rfl

theorem parse_emptyMapping (block indentless : Bool) (last final : Mark)
    : parse handles block indentless (fuel + 2)
        (⟨.flowMappingStart, start, stop⟩ :: ⟨.flowMappingEnd, last, final⟩ :: rest)
      = .ok (.mapping bare [] start, rest) := by
  rfl

theorem parse_blockSequence (indentless : Bool) {items : List (Node String)}
    (inner : blockItems handles start fuel tokens = .ok (items, rest))
    : parse handles true indentless (fuel + 1) (⟨.blockSequenceStart, start, stop⟩ :: tokens)
      = .ok (.sequence bare items start, rest) := by
  unfold parse
  simp only [preamble, if_true, inner]
  rfl

theorem parse_blockMapping (indentless : Bool) {entries : List (Node String × Node String)}
    (inner : blockPairs handles start fuel tokens = .ok (entries, rest))
    : parse handles true indentless (fuel + 1) (⟨.blockMappingStart, start, stop⟩ :: tokens)
      = .ok (.mapping bare entries start, rest) := by
  unfold parse
  simp only [preamble, if_true, inner]
  rfl

theorem parse_indentless {items : List (Node String)}
    (inner : indentlessItems handles fuel (⟨.blockEntry, start, stop⟩ :: tokens)
      = .ok (items, rest))
    : parse handles true true (fuel + 1) (⟨.blockEntry, start, stop⟩ :: tokens)
      = .ok (.sequence bare items start, rest) := by
  unfold parse
  simp only [preamble, if_true, inner]
  rfl

theorem parseUnless_of_kinds {indentless : Bool} {stops : List Token.Kind} {mark : Mark}
    {kind : Token.Kind} {more : List Token.Kind} (known : Token.kinds tokens = kind :: more)
    (other : kind ∉ stops)
    : parseUnless handles true indentless stops mark (fuel + 1) tokens
      = parse handles true indentless fuel tokens := by
  obtain ⟨start, stop, rest, rfl, _⟩ := Token.exists_of_kinds_cons known
  have absent : startsWith stops (⟨kind, start, stop⟩ :: rest) = false := by
    simpa [startsWith] using other
  rw [parseUnless, absent, if_neg Bool.false_ne_true]

/-- The first of these tokens begins a node wherever one can stand behind a mark. -/
def Begins (tokens : List Token) (behindKey : Bool) : Prop :=
  ∃ kind more, Token.kinds tokens = kind :: more ∧ kind ∉ [Token.Kind.key, .value, .blockEnd]
    ∧ (behindKey = false → kind ≠ .blockEntry)

theorem blockItems_cons {node : Node String} {nodes : List (Node String)} {left last final : Mark}
    {behind : List Token} (begins : Begins tokens false)
    (item : parse handles true false fuel tokens = .ok (node, rest))
    (items : blockItems handles left (fuel + 1) rest = .ok (nodes, behind))
    : blockItems handles left (fuel + 2) (⟨.blockEntry, last, final⟩ :: tokens)
      = .ok (node :: nodes, behind) := by
  obtain ⟨kind, more, known, other, noDash⟩ := begins
  have head := @parseUnless_of_kinds handles fuel tokens false [.blockEntry, .blockEnd] final
    kind more known (by simp_all)
  rw [blockItems, head, item, Except.ok_bind]
  dsimp only
  rw [items]
  rfl

theorem indentlessItems_cons {node : Node String} {nodes : List (Node String)}
    {last final : Mark} {behind : List Token} (begins : Begins tokens false)
    (item : parse handles true false fuel tokens = .ok (node, rest))
    (items : indentlessItems handles (fuel + 1) rest = .ok (nodes, behind))
    : indentlessItems handles (fuel + 2) (⟨.blockEntry, last, final⟩ :: tokens)
      = .ok (node :: nodes, behind) := by
  obtain ⟨kind, more, known, other, noDash⟩ := begins
  have head := @parseUnless_of_kinds handles fuel tokens false
    [.blockEntry, .key, .value, .blockEnd] final kind more known (by simp_all)
  rw [indentlessItems, head, item, Except.ok_bind]
  dsimp only
  rw [items]
  rfl

theorem blockPairs_cons {node : Node String} {entries : List (Node String × Node String)}
    {key : String} {left a b c d e f : Mark} {behind : List Token} (begins : Begins tokens true)
    (value : parse handles true true fuel tokens = .ok (node, rest))
    (others : blockPairs handles left (fuel + 2) rest = .ok (entries, behind))
    : blockPairs handles left (fuel + 3)
        (⟨.key, a, b⟩ :: ⟨.scalar key.toList .plain, c, d⟩ :: ⟨.value, e, f⟩ :: tokens)
      = .ok ((.scalar bare key .plain c, node) :: entries, behind) := by
  obtain ⟨kind, more, known, other, _⟩ := begins
  have inner := @parseUnless_of_kinds handles fuel tokens true [.key, .value, .blockEnd] f
    kind more known other
  have outer := @parseUnless_of_kinds handles (fuel + 1)
    (⟨.scalar key.toList .plain, c, d⟩ :: ⟨.value, e, f⟩ :: tokens) true [.key, .value, .blockEnd] b
    _ _ rfl (by simp)
  rw [blockPairs, outer, parse_scalar, Except.ok_bind]
  dsimp only
  rw [blockValue, inner, value, Except.ok_bind]
  dsimp only
  rw [others]
  rfl

-----------------------------------------------------------------------------------------
-- Parsing a tree
-----------------------------------------------------------------------------------------

/-- A tree begins with a token that ends nothing; only a list behind its key begins with a dash. -/
theorem begins_of_kinds {tokens : List Token} {tree : Tree} {behindKey : Bool}
    {more : List Token.Kind} (known : Token.kinds tokens = tree.kinds behindKey ++ more)
    : Begins tokens behindKey := by
  match tree with
  | .text s => exact ⟨_, _, known, by simp, by simp⟩
  | .list [] => exact ⟨_, _, known, by simp, by simp⟩
  | .list (item :: items) =>
      cases behindKey with
      | false => exact ⟨_, _, known, by simp, by simp⟩
      | true => exact ⟨_, _, known, by simp, by simp⟩
  | .record [] => exact ⟨_, _, known, by simp, by simp⟩
  | .record (field :: fields) => exact ⟨_, _, known, by simp, by simp⟩

/-- Items without marks around them end before a token that is no dash. -/
def EndsItems : List Token.Kind → Prop
  | [] => True
  | kind :: _ => kind ≠ .blockEntry

theorem endsItems_fieldsKinds (fields : List (String × Tree)) (more : List Token.Kind)
    : EndsItems (Tree.fieldsKinds fields ++ .blockEnd :: more) := by
  cases fields with
  | nil => simp [Tree.fieldsKinds, EndsItems]
  | cons field fields => simp [Tree.fieldsKinds, EndsItems]

theorem indentlessItems_nil {handles : Handles} {fuel : Nat} {tokens : List Token}
    {more : List Token.Kind} (known : Token.kinds tokens = more) (ends : EndsItems more)
    : indentlessItems handles (fuel + 1) tokens = .ok ([], tokens) := by
  cases tokens with
  | nil => rfl
  | cons token tokens =>
      obtain ⟨kind, start, stop⟩ := token
      rw [← known] at ends
      change kind ≠ .blockEntry at ends
      rw [indentlessItems]
      rintro start stop rest same
      cases same
      exact ends rfl

mutual

/-- The tokens of a tree are parsed to a node that spells it. -/
theorem parse_kinds {handles : Handles} {fuel : Nat} {tokens : List Token}
    {more : List Token.Kind} (tree : Tree) (behindKey : Bool)
    (known : Token.kinds tokens = tree.kinds behindKey ++ more)
    (ends : behindKey = true → EndsItems more) (enough : 3 * tokens.length + 2 ≤ fuel)
    : ∃ node rest, parse handles true behindKey fuel tokens = .ok (node, rest)
      ∧ Spells node tree ∧ Token.kinds rest = more := by
  match tree with
  | .text s =>
      obtain ⟨fuel, rfl⟩ := Nat.exists_eq_add_of_le' (Nat.le_trans (Nat.le_add_left 1 _) enough)
      obtain ⟨start, stop, rest, rfl, same⟩ := Token.exists_of_kinds_cons known
      exact ⟨_, rest, parse_scalar true behindKey s _, .text s start, same⟩
  | .list [] =>
      obtain ⟨fuel, rfl⟩ := Nat.exists_eq_add_of_le' (Nat.le_trans (Nat.le_add_left 2 _) enough)
      obtain ⟨start, stop, behind, rfl, next⟩ := Token.exists_of_kinds_cons known
      obtain ⟨last, final, rest, rfl, same⟩ := Token.exists_of_kinds_cons next
      exact ⟨_, rest, parse_emptySequence true behindKey last final, .list start .nil, same⟩
  | .record [] =>
      obtain ⟨fuel, rfl⟩ := Nat.exists_eq_add_of_le' (Nat.le_trans (Nat.le_add_left 2 _) enough)
      obtain ⟨start, stop, behind, rfl, next⟩ := Token.exists_of_kinds_cons known
      obtain ⟨last, final, rest, rfl, same⟩ := Token.exists_of_kinds_cons next
      exact ⟨_, rest, parse_emptyMapping true behindKey last final, .record start .nil, same⟩
  | .list (item :: items) =>
      obtain ⟨fuel, rfl⟩ := Nat.exists_eq_add_of_le' (Nat.le_trans (Nat.le_add_left 1 _) enough)
      cases behindKey with
      | false =>
          rw [Tree.kinds, if_neg Bool.false_ne_true, List.cons_append, List.cons_append,
            List.append_assoc] at known
          obtain ⟨start, stop, behind, rfl, next⟩ := Token.exists_of_kinds_cons known
          rw [List.length_cons] at enough
          obtain ⟨nodes, rest, inner, each, same⟩ := @blockItems_kinds handles start fuel behind
            more (item :: items) next (by omega)
          exact ⟨_, rest, parse_blockSequence false inner, .list start each, same⟩
      | true =>
          rw [Tree.kinds, if_pos rfl] at known
          obtain ⟨nodes, rest, inner, each, same⟩ := @indentlessItems_kinds handles fuel tokens
            more (item :: items) known (ends rfl) (by omega)
          obtain ⟨start, stop, behind, rfl, _⟩ := Token.exists_of_kinds_cons known
          exact ⟨_, rest, parse_indentless inner, .list start each, same⟩
  | .record (field :: fields) =>
      obtain ⟨fuel, rfl⟩ := Nat.exists_eq_add_of_le' (Nat.le_trans (Nat.le_add_left 1 _) enough)
      rw [Tree.kinds, List.cons_append, List.cons_append, List.append_assoc] at known
      obtain ⟨start, stop, behind, rfl, next⟩ := Token.exists_of_kinds_cons known
      rw [List.length_cons] at enough
      obtain ⟨entries, rest, inner, each, same⟩ := @blockPairs_kinds handles start fuel behind
        more (field :: fields) next (by omega)
      exact ⟨_, rest, parse_blockMapping behindKey inner, .record start each, same⟩
termination_by sizeOf tree

/-- So are the tokens of items up to the end of their block. -/
theorem blockItems_kinds {handles : Handles} {start : Mark} {fuel : Nat} {tokens : List Token}
    {more : List Token.Kind} (items : List Tree)
    (known : Token.kinds tokens = Tree.itemsKinds items ++ .blockEnd :: more)
    (enough : 3 * tokens.length + 1 ≤ fuel)
    : ∃ nodes rest, blockItems handles start fuel tokens = .ok (nodes, rest)
      ∧ SpellsItems nodes items ∧ Token.kinds rest = more := by
  match items with
  | [] =>
      obtain ⟨fuel, rfl⟩ := Nat.exists_eq_add_of_le' (Nat.le_trans (Nat.le_add_left 1 _) enough)
      obtain ⟨_, _, rest, rfl, same⟩ := Token.exists_of_kinds_cons known
      exact ⟨[], rest, rfl, .nil, same⟩
  | item :: items =>
      rw [Tree.itemsKinds, List.cons_append, List.cons_append, List.append_assoc] at known
      obtain ⟨_, _, tokens, rfl, next⟩ := Token.exists_of_kinds_cons known
      rw [List.length_cons] at enough
      obtain ⟨fuel, rfl⟩ := Nat.exists_eq_add_of_le' (show 2 ≤ fuel by omega)
      obtain ⟨node, behind, first, head, others⟩ := @parse_kinds handles fuel tokens _ item false
        next (by simp) (by omega)
      have shorter := Token.length_le_of_kinds next others
      obtain ⟨nodes, rest, inner, tail, same⟩ := @blockItems_kinds handles start (fuel + 1) behind
        more items others (by omega)
      exact ⟨node :: nodes, rest, blockItems_cons (begins_of_kinds next) first inner,
        .cons head tail, same⟩
termination_by sizeOf items

/-- So are the tokens of items that have no marks around them. -/
theorem indentlessItems_kinds {handles : Handles} {fuel : Nat} {tokens : List Token}
    {more : List Token.Kind} (items : List Tree)
    (known : Token.kinds tokens = Tree.itemsKinds items ++ more) (ends : EndsItems more)
    (enough : 3 * tokens.length + 1 ≤ fuel)
    : ∃ nodes rest, indentlessItems handles fuel tokens = .ok (nodes, rest)
      ∧ SpellsItems nodes items ∧ Token.kinds rest = more := by
  match items with
  | [] =>
      obtain ⟨fuel, rfl⟩ := Nat.exists_eq_add_of_le' (Nat.le_trans (Nat.le_add_left 1 _) enough)
      exact ⟨[], tokens, indentlessItems_nil known ends, .nil, known⟩
  | item :: items =>
      rw [Tree.itemsKinds, List.cons_append, List.cons_append, List.append_assoc] at known
      obtain ⟨_, _, tokens, rfl, next⟩ := Token.exists_of_kinds_cons known
      rw [List.length_cons] at enough
      obtain ⟨fuel, rfl⟩ := Nat.exists_eq_add_of_le' (show 2 ≤ fuel by omega)
      obtain ⟨node, behind, first, head, others⟩ := @parse_kinds handles fuel tokens _ item false
        next (by simp) (by omega)
      have shorter := Token.length_le_of_kinds next others
      obtain ⟨nodes, rest, inner, tail, same⟩ := @indentlessItems_kinds handles (fuel + 1) behind
        more items others ends (by omega)
      exact ⟨node :: nodes, rest, indentlessItems_cons (begins_of_kinds next) first inner,
        .cons head tail, same⟩
termination_by sizeOf items

/-- So are the tokens of fields up to the end of their block. -/
theorem blockPairs_kinds {handles : Handles} {start : Mark} {fuel : Nat} {tokens : List Token}
    {more : List Token.Kind} (fields : List (String × Tree))
    (known : Token.kinds tokens = Tree.fieldsKinds fields ++ .blockEnd :: more)
    (enough : 3 * tokens.length + 1 ≤ fuel)
    : ∃ entries rest, blockPairs handles start fuel tokens = .ok (entries, rest)
      ∧ SpellsFields entries fields ∧ Token.kinds rest = more := by
  match fields with
  | [] =>
      obtain ⟨fuel, rfl⟩ := Nat.exists_eq_add_of_le' (Nat.le_trans (Nat.le_add_left 1 _) enough)
      obtain ⟨_, _, rest, rfl, same⟩ := Token.exists_of_kinds_cons known
      exact ⟨[], rest, rfl, .nil, same⟩
  | (key, tree) :: fields =>
      rw [Tree.fieldsKinds, List.cons_append, List.cons_append, List.cons_append, List.cons_append,
        List.append_assoc] at known
      obtain ⟨_, _, _, rfl, second⟩ := Token.exists_of_kinds_cons known
      obtain ⟨mark, _, _, rfl, third⟩ := Token.exists_of_kinds_cons second
      obtain ⟨_, _, tokens, rfl, next⟩ := Token.exists_of_kinds_cons third
      rw [List.length_cons, List.length_cons, List.length_cons] at enough
      obtain ⟨fuel, rfl⟩ := Nat.exists_eq_add_of_le' (show 3 ≤ fuel by omega)
      obtain ⟨node, behind, first, value, others⟩ := @parse_kinds handles fuel tokens _ tree true
        next (fun _ => endsItems_fieldsKinds fields more) (by omega)
      have shorter := Token.length_le_of_kinds next others
      obtain ⟨entries, rest, inner, tail, same⟩ := @blockPairs_kinds handles start (fuel + 2)
        behind more fields others (by omega)
      exact ⟨_, rest, blockPairs_cons (begins_of_kinds next) first inner,
        .cons key mark value tail, same⟩
termination_by sizeOf fields

end

/-- The tokens of a record that is all there is make a document. -/
theorem ofTokens_kinds {tokens : List Token} {fields : List (String × Tree)}
    (nonempty : fields ≠ [])
    (known : Token.kinds tokens = (Tree.record fields).kinds false ++ [.streamEnd])
    : ∃ root, ofTokens tokens = .ok root ∧ Spells root (.record fields) := by
  obtain ⟨root, rest, parsed, spells, last⟩ := @parse_kinds standardHandles (steps tokens) tokens
    [.streamEnd] (.record fields) false known (by simp) (by unfold steps; omega)
  obtain ⟨_, _, behind, rfl, _⟩ := Token.exists_of_kinds_cons last
  refine ⟨root, ?_, spells⟩
  cases fields with
  | nil => exact absurd rfl nonempty
  | cons field fields =>
      obtain ⟨start, stop, inner, rfl, _⟩ := Token.exists_of_kinds_cons known
      unfold ofTokens
      change parse standardHandles true false (steps (_ :: inner)) (_ :: inner) >>= _ = _
      rw [parsed]
      rfl

end Node

end DocPipeline.Yaml
