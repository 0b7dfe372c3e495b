import DocPipeline.Yaml.Node

/-! A text as one document: its root node, with every alias tied to the anchor it names. -/

namespace DocPipeline.Yaml

/-- The anchors seen so far, each with its number. A name that comes again keeps its place among
the names and gets the number that a new name would get.
-/
abbrev Anchors := List (String × Nat)

/-- With an anchor of this name, whose number is the count of the names before. -/
def Anchors.add (anchors : Anchors) (name : String) : Nat × Anchors :=
  (anchors.length, (name, anchors.length) :: anchors.filter (·.1 ≠ name))

namespace Node

mutual

/-- The node with numbers in place of anchor names, in the order in which nodes begin. -/
def link (anchors : Anchors) : Node String → Except Fault (Node Nat × Anchors)
  | .aliasOf name mark =>
    match anchors.lookup name with
    | some target => .ok (.aliasOf target mark, anchors)
    | none => .error ⟨.anchorUnknown, mark, none⟩
  | .scalar properties text style mark =>
    let (properties, anchors) := linkProperties anchors properties
    .ok (.scalar properties text style mark, anchors)
  | .sequence properties items mark => do
    let (properties, anchors) := linkProperties anchors properties
    let (items, anchors) ← linkItems anchors items
    return (.sequence properties items mark, anchors)
  | .mapping properties entries mark => do
    let (properties, anchors) := linkProperties anchors properties
    let (entries, anchors) ← linkEntries anchors entries
    return (.mapping properties entries mark, anchors)

/-- The properties of a node, with a number for its anchor. -/
def linkProperties (anchors : Anchors) (properties : Properties String)
    : Properties Nat × Anchors :=
  match properties.anchor with
  | some name =>
    let (number, anchors) := anchors.add name
    (⟨some number, properties.tag⟩, anchors)
  | none => (⟨none, properties.tag⟩, anchors)

/-- The items of a sequence, one after the other. -/
def linkItems (anchors : Anchors) : List (Node String) → Except Fault (List (Node Nat) × Anchors)
  | [] => .ok ([], anchors)
  | item :: items => do
    let (item, anchors) ← link anchors item
    let (items, anchors) ← linkItems anchors items
    return (item :: items, anchors)

/-- The entries of a mapping, each key before its value. -/
def linkEntries (anchors : Anchors)
    : List (Node String × Node String) → Except Fault (List (Node Nat × Node Nat) × Anchors)
  | [] => .ok ([], anchors)
  | (key, value) :: entries => do
    let (key, anchors) ← link anchors key
    let (value, anchors) ← link anchors value
    let (entries, anchors) ← linkEntries anchors entries
    return ((key, value) :: entries, anchors)

end

mutual

/-- The nodes with an anchor, in the order in which they begin. -/
def anchored {ρ : Type} : Node ρ → List (ρ × Node ρ)
  | .scalar properties text style mark =>
    (properties.anchor.map fun n => (n, .scalar properties text style mark)).toList
  | .sequence properties items mark =>
    (properties.anchor.map fun n => (n, .sequence properties items mark)).toList
      ++ anchoredItems items
  | .mapping properties entries mark =>
    (properties.anchor.map fun n => (n, .mapping properties entries mark)).toList
      ++ anchoredEntries entries
  | .aliasOf _ _ => []

/-- The nodes with an anchor among the items of a sequence. -/
def anchoredItems {ρ : Type} : List (Node ρ) → List (ρ × Node ρ)
  | [] => []
  | item :: items => anchored item ++ anchoredItems items

/-- The nodes with an anchor among the entries of a mapping. -/
def anchoredEntries {ρ : Type} : List (Node ρ × Node ρ) → List (ρ × Node ρ)
  | [] => []
  | (key, value) :: entries => anchored key ++ anchored value ++ anchoredEntries entries

end

/-- What the tokens behind the only document may be. -/
def checkEnd : List Token → Except Fault Unit
  | ⟨.documentEnd, _, _⟩ :: rest => checkEnd rest
  | ⟨.streamEnd, _, _⟩ :: _ => .ok ()
  | ⟨.documentStart, mark, _⟩ :: _ => .error ⟨.severalDocuments, mark, none⟩
  | tokens => .error ⟨.documentStartExpected, firstMark tokens, none⟩

/-- The directives at the front: the version, of which there is at most one, and the handles. -/
def directives (versionSeen : Bool) (handles : Handles)
    : List Token → Except Fault (Handles × List Token)
  | ⟨.version major minor, mark, _⟩ :: rest =>
    if versionSeen then .error ⟨.versionRepeated, mark, none⟩
    else if major ≠ 1 || (minor ≠ 1 && minor ≠ 2) then
      .error ⟨.versionRefused, mark, none⟩
    else directives true handles rest
  | ⟨.tagDirective front expansion, mark, _⟩ :: rest =>
    if (handles.lookup front).isSome then .error ⟨.tagRepeated, mark, none⟩
    else directives versionSeen (handles ++ [(front, expansion)]) rest
  | tokens => .ok (handles ++ standardHandles, tokens)

/-- More steps than the tokens can take. -/
def steps (tokens : List Token) : Nat :=
  4 * tokens.length + 4

/-- The first token is a directive. -/
def startsWithDirective : List Token → Bool
  | ⟨.version _ _, _, _⟩ :: _ => true
  | ⟨.tagDirective _ _, _, _⟩ :: _ => true
  | _ => false

/-- The root node of a document whose beginning is marked; nothing at all may stand there. -/
def markedRoot (handles : Handles) (tokens : List Token)
    : Except Fault (Node String × List Token) :=
  if startsWith [.documentStart, .documentEnd, .streamEnd] tokens
      || startsWithDirective tokens then
    .ok (empty (firstMark tokens), tokens)
  else parse handles true false (steps tokens) tokens

/-- The root node of the one document that the tokens make. -/
def ofTokens (tokens : List Token) : Except Fault (Node String) := do
  if startsWith [.streamEnd] tokens then return empty (firstMark tokens)
  let (handles, rest) ← directives false [] tokens
  let (root, rest) ←
    match rest with
    | ⟨.documentStart, _, _⟩ :: rest => markedRoot handles rest
    | _ =>
      if startsWithDirective tokens then
        throw ⟨.documentStartExpected, firstMark rest, none⟩
      else parse handles true false (steps rest) rest
  checkEnd rest
  return root

end Node

/-- A document: the root node, and the node that each anchor number stands for. -/
structure Document where
  root : Node Nat
  anchored : List (Nat × Node Nat)

namespace Document

/-- The last node with that number. -/
def target? (document : Document) (number : Nat) : Option (Node Nat) :=
  document.anchored.reverse.lookup number

/-- The node that a node stands for; only an alias stands for another one. -/
def resolve (document : Document) : Node Nat → Node Nat
  | .aliasOf number mark => (document.target? number).getD (.empty mark)
  | node => node

/-- The document that a text spells out. -/
def ofText (text : String) : Except Fault Document := do
  let cs := text.toList
  if let some _ := cs.find? fun c => !isAllowed c then
    throw ⟨.controlCharacter, .start, none⟩
  let tokens ← Token.scan cs
  let root ← Node.ofTokens tokens
  let (root, _) ← Node.link [] root
  return ⟨root, root.anchored⟩

end Document
end DocPipeline.Yaml
