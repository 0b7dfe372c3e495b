import DocPipeline.Yaml.Token.Scan

/-! Nodes: the scalars, sequences and mappings that tokens spell out. A node may carry a tag and an
anchor, and an alias stands for the node of an anchor; `ρ` is what anchors are referred to by.
-/

namespace DocPipeline.Yaml

/-- What a node carries besides its content. -/
structure Properties (ρ : Type) where
  anchor : Option ρ
  tag : Option String
deriving DecidableEq, Repr

/-- A node of a document, with the place where it begins. -/
inductive Node (ρ : Type) where
  | scalar (properties : Properties ρ) (text : String) (style : Style) (mark : Mark)
  | sequence (properties : Properties ρ) (items : List (Node ρ)) (mark : Mark)
  | mapping (properties : Properties ρ) (entries : List (Node ρ × Node ρ)) (mark : Mark)
  | aliasOf (target : ρ) (mark : Mark)

namespace Node

/-- The place where a node begins. -/
def mark {ρ : Type} : Node ρ → Mark
  | scalar _ _ _ mark => mark
  | sequence _ _ mark => mark
  | mapping _ _ mark => mark
  | aliasOf _ mark => mark

/-- No tag and no anchor. -/
def bare {ρ : Type} : Properties ρ := ⟨none, none⟩

/-- The empty plain scalar, which stands where a node is left out. -/
def empty {ρ : Type} (mark : Mark) : Node ρ :=
  .scalar bare "" .plain mark

/-- What each tag handle stands for. -/
abbrev Handles := List (List Char × List Char)

/-- The handles that every document knows. -/
def standardHandles : Handles :=
  [(['!'], ['!']), (['!', '!'], "tag:yaml.org,2002:".toList)]

/-- The tag that a handle and a suffix stand for; an empty handle leaves the suffix as it is. -/
def expandTag (handles : Handles) (front suffix : List Char) : Option String :=
  if front.isEmpty then some (String.ofList suffix)
  else (handles.lookup front).map fun expansion => String.ofList (expansion ++ suffix)

/-- The tag and the anchor before a node, in either order. -/
structure Preamble where
  anchor : Option String
  tag : Option (List Char × List Char)
  start : Option Mark

/-- The tag and the anchor at the front of the tokens. -/
def preamble : List Token → Preamble × List Token
  | ⟨.anchor name, start, _⟩ :: ⟨.tag front suffix, _, _⟩ :: rest =>
    (⟨some (String.ofList name), some (front, suffix), some start⟩, rest)
  | ⟨.tag front suffix, start, _⟩ :: ⟨.anchor name, _, _⟩ :: rest =>
    (⟨some (String.ofList name), some (front, suffix), some start⟩, rest)
  | ⟨.anchor name, start, _⟩ :: rest => (⟨some (String.ofList name), none, some start⟩, rest)
  | ⟨.tag front suffix, start, _⟩ :: rest => (⟨none, some (front, suffix), some start⟩, rest)
  | tokens => (⟨none, none, none⟩, tokens)

/-- The place of the first token. -/
def firstMark : List Token → Mark
  | token :: _ => token.start
  | [] => .start

/-- The first token is of one of these kinds. -/
def startsWith (kinds : List Token.Kind) : List Token → Bool
  | token :: _ => kinds.contains token.kind
  | [] => true

/-- A problem at the first token. -/
def unexpected (problem : Problem) (construct : Construct) (start : Mark)
    (tokens : List Token) : Fault :=
  ⟨problem, firstMark tokens, some (construct, start)⟩

/-- A node of which only the tag or the anchor is there. -/
def leftOut (block : Bool) (properties : Properties String) (mark : Mark)
    (tokens : List Token) : Except Fault (Node String × List Token) :=
  if properties.anchor.isSome || properties.tag.isSome then
    .ok (.scalar properties "" .plain mark, tokens)
  else
    .error (unexpected .contentExpected (if block then .blockNode else .flowNode) mark tokens)

mutual

/-- The node at the front. A dash may begin a sequence only where `indentless` allows it, and a
block collection only where `block` does.
-/
def parse (handles : Handles) (block indentless : Bool)
    : Nat → List Token → Except Fault (Node String × List Token)
  | 0, tokens => .error (unexpected .contentExpected .blockNode .start tokens)
  | fuel + 1, tokens =>
    match tokens with
    | ⟨.aliasName name, mark, _⟩ :: rest => .ok (.aliasOf (String.ofList name) mark, rest)
    | _ => do
      let (front, rest) := preamble tokens
      let mark := front.start.getD (firstMark rest)
      let tag ←
        match front.tag with
        | none => pure none
        | some (handle, suffix) =>
          match expandTag handles handle suffix with
          | some tag => pure (some tag)
          | none =>
            throw ⟨.tagUndefined, mark, some (if block then .blockNode else .flowNode, mark)⟩
      let properties : Properties String := ⟨front.anchor, tag⟩
      match rest with
      | ⟨.scalar text style, _, _⟩ :: rest =>
        let properties := if tag = some "!" then { properties with tag := none } else properties
        return (.scalar properties (String.ofList text) style mark, rest)
      | ⟨.flowSequenceStart, start, _⟩ :: rest =>
        let (items, rest) ← flowItems handles start true fuel rest
        return (.sequence properties items mark, rest)
      | ⟨.flowMappingStart, start, _⟩ :: rest =>
        let (entries, rest) ← flowPairs handles start true fuel rest
        return (.mapping properties entries mark, rest)
      | ⟨.blockEntry, _, _⟩ :: _ =>
        if indentless then
          let (items, rest) ← indentlessItems handles fuel rest
          return (.sequence properties items mark, rest)
        else leftOut block properties mark rest
      | ⟨.blockSequenceStart, start, _⟩ :: behind =>
        if block then
          let (items, rest) ← blockItems handles start fuel behind
          return (.sequence properties items mark, rest)
        else leftOut block properties mark rest
      | ⟨.blockMappingStart, start, _⟩ :: behind =>
        if block then
          let (entries, rest) ← blockPairs handles start fuel behind
          return (.mapping properties entries mark, rest)
        else leftOut block properties mark rest
      | _ => leftOut block properties mark rest

/-- The node at the front, or the empty one if the next token is of one of the kinds. -/
def parseUnless (handles : Handles) (block indentless : Bool) (kinds : List Token.Kind)
    (mark : Mark) : Nat → List Token → Except Fault (Node String × List Token)
  | 0, tokens => .error (unexpected .contentExpected .blockNode .start tokens)
  | fuel + 1, tokens =>
    if startsWith kinds tokens then .ok (empty mark, tokens)
    else parse handles block indentless fuel tokens

/-- The entries of a block sequence, to its end. -/
def blockItems (handles : Handles) (start : Mark)
    : Nat → List Token → Except Fault (List (Node String) × List Token)
  | 0, tokens => .error (unexpected .dashExpected .blockCollection start tokens)
  | fuel + 1, tokens =>
    match tokens with
    | ⟨.blockEntry, _, stop⟩ :: rest => do
      let (item, rest) ←
        parseUnless handles true false [.blockEntry, .blockEnd] stop fuel rest
      let (items, rest) ← blockItems handles start fuel rest
      return (item :: items, rest)
    | ⟨.blockEnd, _, _⟩ :: rest => .ok ([], rest)
    | _ => .error (unexpected .dashExpected .blockCollection start tokens)

/-- The entries of a block sequence that lies no deeper than the mapping around it. -/
def indentlessItems (handles : Handles)
    : Nat → List Token → Except Fault (List (Node String) × List Token)
  | 0, tokens => .error (unexpected .dashExpected .blockCollection .start tokens)
  | fuel + 1, tokens =>
    match tokens with
    | ⟨.blockEntry, _, stop⟩ :: rest => do
      let (item, rest) ←
        parseUnless handles true false [.blockEntry, .key, .value, .blockEnd] stop fuel rest
      let (items, rest) ← indentlessItems handles fuel rest
      return (item :: items, rest)
    | _ => .ok ([], tokens)

/-- The entries of a block mapping, to its end. -/
def blockPairs (handles : Handles) (start : Mark)
    : Nat → List Token → Except Fault (List (Node String × Node String) × List Token)
  | 0, tokens => .error (unexpected .keyExpected .blockMapping start tokens)
  | fuel + 1, tokens =>
    match tokens with
    | ⟨.key, _, stop⟩ :: rest => do
      let (key, rest) ←
        parseUnless handles true true [.key, .value, .blockEnd] stop fuel rest
      let (value, rest) ← blockValue handles fuel rest
      let (entries, rest) ← blockPairs handles start fuel rest
      return ((key, value) :: entries, rest)
    | ⟨.blockEnd, _, _⟩ :: rest => .ok ([], rest)
    | _ => .error (unexpected .keyExpected .blockMapping start tokens)

/-- The value of an entry of a block mapping. -/
def blockValue (handles : Handles)
    : Nat → List Token → Except Fault (Node String × List Token)
  | 0, tokens => .error (unexpected .keyExpected .blockMapping .start tokens)
  | fuel + 1, tokens =>
    match tokens with
    | ⟨.value, _, stop⟩ :: rest =>
      parseUnless handles true true [.key, .value, .blockEnd] stop fuel rest
    | _ => .ok (empty (firstMark tokens), tokens)

/-- The entries of a sequence in brackets, to its end. -/
def flowItems (handles : Handles) (start : Mark) (first : Bool)
    : Nat → List Token → Except Fault (List (Node String) × List Token)
  | 0, tokens => .error (unexpected .commaOrBracketExpected .flowSequence start tokens)
  | fuel + 1, tokens =>
    match tokens with
    | ⟨.flowSequenceEnd, _, _⟩ :: rest => .ok ([], rest)
    | _ => do
      let tokens ←
        if first then pure tokens
        else
          match tokens with
          | ⟨.flowEntry, _, _⟩ :: rest => pure rest
          | _ => throw (unexpected .commaOrBracketExpected .flowSequence start tokens)
      match tokens with
      | ⟨.flowSequenceEnd, _, _⟩ :: rest => return ([], rest)
      | ⟨.key, mark, _⟩ :: rest =>
        let (pair, rest) ← flowPair handles fuel rest
        let (items, rest) ← flowItems handles start false fuel rest
        return (.mapping bare [pair] mark :: items, rest)
      | _ =>
        let (item, rest) ← parse handles false false fuel tokens
        let (items, rest) ← flowItems handles start false fuel rest
        return (item :: items, rest)

/-- A single pair among the entries of a sequence in brackets. Where its key is left out, the
token behind goes with it.
-/
def flowPair (handles : Handles)
    : Nat → List Token → Except Fault ((Node String × Node String) × List Token)
  | 0, tokens => .error (unexpected .contentExpected .flowNode .start tokens)
  | fuel + 1, tokens => do
    let (key, rest) ←
      if startsWith [.value, .flowEntry, .flowSequenceEnd] tokens then
        match tokens with
        | token :: rest => pure (empty token.stop, rest)
        | [] => throw (unexpected .contentExpected .flowNode .start tokens)
      else parse handles false false fuel tokens
    match rest with
    | ⟨.value, _, _⟩ :: rest =>
      let (value, rest) ←
        parseUnless handles false false [.flowEntry, .flowSequenceEnd] (firstMark rest) fuel
          rest
      return ((key, value), rest)
    | _ => return ((key, empty (firstMark rest)), rest)

/-- The entries of a mapping in braces, to its end. -/
def flowPairs (handles : Handles) (start : Mark) (first : Bool)
    : Nat → List Token → Except Fault (List (Node String × Node String) × List Token)
  | 0, tokens => .error (unexpected .commaOrBraceExpected .flowMapping start tokens)
  | fuel + 1, tokens =>
    match tokens with
    | ⟨.flowMappingEnd, _, _⟩ :: rest => .ok ([], rest)
    | _ => do
      let tokens ←
        if first then pure tokens
        else
          match tokens with
          | ⟨.flowEntry, _, _⟩ :: rest => pure rest
          | _ => throw (unexpected .commaOrBraceExpected .flowMapping start tokens)
      match tokens with
      | ⟨.flowMappingEnd, _, _⟩ :: rest => return ([], rest)
      | ⟨.key, _, _⟩ :: rest =>
        let (key, rest) ←
          parseUnless handles false false [.value, .flowEntry, .flowMappingEnd]
            (firstMark rest) fuel rest
        let (value, rest) ←
          match rest with
          | ⟨.value, _, _⟩ :: rest =>
            parseUnless handles false false [.flowEntry, .flowMappingEnd] (firstMark rest) fuel
              rest
          | _ => pure (empty (firstMark rest), rest)
        let (entries, rest) ← flowPairs handles start false fuel rest
        return ((key, value) :: entries, rest)
      | _ =>
        let (key, rest) ← parse handles false false fuel tokens
        let (entries, rest) ← flowPairs handles start false fuel rest
        return ((key, empty (firstMark rest)) :: entries, rest)

end

end Node
end DocPipeline.Yaml
