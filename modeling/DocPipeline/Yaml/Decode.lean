import DocPipeline.Yaml.Document
import DocPipeline.Yaml.Meaning

/-! Reading values of a known shape from a document: texts, optional texts, lists and records. What
does not fit is reported with its path from the root and the place where it begins.
-/

namespace DocPipeline.Yaml

/-- The way from the root of a document to a node. -/
inductive Path where
  | root
  | item (parent : Path) (index : Nat)
  | field (parent : Path) (key : String)
  /-- The value under a key that is given by an alias. -/
  | unnamed (parent : Path)
deriving DecidableEq, Repr

namespace Path

/-- The path before one more step. -/
def lead (write : Path → String) : Path → String
  | root => ""
  | path => write path ++ "."

/-- The path as a report writes it. -/
def text : Path → String
  | root => "."
  | item parent index => text parent ++ "[" ++ toString index ++ "]"
  | field root key => key
  | field parent key => text parent ++ "." ++ key
  | unnamed root => "?"
  | unnamed parent => text parent ++ ".?"

end Path

/-- A node that does not have the shape that is asked for. The place is filled in by the innermost
value that knows it.
-/
structure Misfit where
  reason : String
  place : Option (Path × Mark)
deriving DecidableEq, Repr

namespace Misfit

/-- A misfit whose place is not known yet. -/
def unplaced (reason : String) : Misfit :=
  ⟨reason, none⟩

/-- A value of another kind than expected. -/
def invalidType (found expected : String) : Misfit :=
  unplaced ("invalid type: " ++ found ++ ", expected " ++ expected)

/-- A text that does not mean what its tag says. -/
def invalidValue (value expected : String) : Misfit :=
  unplaced ("invalid value: string " ++ Text.quoted value ++ ", expected " ++ expected)

/-- A field that must be there is not. -/
def missingField (key : String) : Misfit :=
  unplaced ("missing field `" ++ key ++ "`")

/-- A field is there twice. -/
def duplicateField (key : String) : Misfit :=
  unplaced ("duplicate field `" ++ key ++ "`")

/-- With a place, unless it has one. -/
def placedAt (misfit : Misfit) (path : Path) (mark : Mark) : Misfit :=
  { misfit with place := misfit.place.or (some (path, mark)) }

/-- The text in which a misfit is reported. -/
def message (misfit : Misfit) : String :=
  match misfit.place with
  | none => misfit.reason
  | some (.root, mark) => misfit.reason ++ mark.suffix
  | some (path, mark) => path.text ++ ": " ++ misfit.reason ++ mark.suffix

end Misfit

namespace Decode

/-- A result, with the place filled in where it is a misfit without one. -/
def placed {α : Type} (path : Path) (mark : Mark) (result : Except Misfit α)
    : Except Misfit α :=
  result.mapError (·.placedAt path mark)

/-- The tags that say what a scalar means. -/
def standardTag (name : String) : String :=
  "tag:yaml.org,2002:" ++ name

/-- What is found where a scalar is not expected. -/
def describedScalar (tag : Option String) (style : Style) (s expected : String) : Misfit :=
  let bare := Misfit.invalidType ((Meaning.ofText s).described s) expected
  let quoted := Misfit.invalidType (Meaning.described s .text) expected
  match tag with
  | none => if style = .plain then bare else quoted
  | some tag =>
    if tag = standardTag "bool" then
      match Meaning.truth? s with
      | some value => .invalidType (Meaning.described s (.truth value)) expected
      | none => .invalidValue s "a boolean"
    else if tag = standardTag "int" then
      match Meaning.whole? s.toList with
      | some value => .invalidType (Meaning.described s (.whole value)) expected
      | none => .invalidValue s "an integer"
    else if tag = standardTag "float" then
      match Meaning.real? s.toList with
      | some spelling => .invalidType (Meaning.described s (.real spelling)) expected
      | none => .invalidValue s "a float"
    else if tag = standardTag "null" then
      if Meaning.isNull s then .invalidType (Meaning.described s .nothing) expected
      else .invalidValue s "null"
    else if tag.toList.head? = some '!' && style = .plain then bare
    else quoted

/-- What is found instead of the value that is expected. -/
def unexpected (node : Node Nat) (expected : String) : Misfit :=
  match node with
  | .scalar properties s style _ => describedScalar properties.tag style s expected
  | .sequence _ _ _ => .invalidType "sequence" expected
  | .mapping _ _ _ => .invalidType "map" expected
  | .aliasOf _ _ => .invalidType "unit value" expected

/-- The text of a scalar, whatever its style and tag. -/
def textAs (expected : String) (document : Document) (path : Path) (node : Node Nat)
    : Except Misfit String :=
  let node := document.resolve node
  placed path node.mark <|
    match node with
    | .scalar _ s _ _ => .ok s
    | _ => .error (unexpected node expected)

/-- The text of a scalar. -/
def text : Document → Path → Node Nat → Except Misfit String :=
  textAs "a string"

/-- The text of a scalar, or none where a plain scalar spells nothing. -/
def optionalText (document : Document) (path : Path) (node : Node Nat)
    : Except Misfit (Option String) :=
  match document.resolve node with
  | .scalar ⟨anchor, tag⟩ s .plain mark =>
    match tag with
    | none =>
      if s.isEmpty || Meaning.isNull s then .ok none
      else (text document path (.scalar ⟨anchor, tag⟩ s .plain mark)).map some
    | some name =>
      if name = standardTag "null" then
        if Meaning.isNull s then .ok none else .error (.invalidValue s "null")
      else (text document path (.scalar ⟨anchor, tag⟩ s .plain mark)).map some
  | node => (text document path node).map some

/-- The values of the items, each read at its index. -/
def items {α : Type} (read : Path → Node Nat → Except Misfit α) (path : Path)
    : Nat → List (Node Nat) → Except Misfit (List α)
  | _, [] => .ok []
  | index, node :: rest => do
    let value ← read (.item path index) node
    let values ← items read path (index + 1) rest
    return value :: values

/-- The values of a sequence; a plain scalar without text counts as an empty one. -/
def list {α : Type} (read : Path → Node Nat → Except Misfit α) (document : Document)
    (path : Path) (node : Node Nat) : Except Misfit (List α) :=
  let node := document.resolve node
  placed path node.mark <|
    match node with
    | .sequence _ nodes _ => items read path 0 nodes
    | .scalar _ "" .plain _ => .ok []
    | _ => .error (unexpected node "a sequence")

/-- The path to the value under a key. -/
def step (path : Path) (key : Node Nat) (name : String) : Path :=
  match key with
  | .aliasOf _ _ => .unnamed path
  | _ => .field path name

/-- Takes the entries of a mapping one after the other into what has been read before. -/
def entries {σ : Type} (take : σ → String → Path → Node Nat → Except Misfit σ)
    (document : Document) (path : Path)
    : σ → List (Node Nat × Node Nat) → Except Misfit σ
  | state, [] => .ok state
  | state, (key, value) :: rest => do
    let name ← textAs "field identifier" document path key
    let state ← take state name (step path key name) value
    entries take document path state rest

/-- A record: its entries are taken in order, then the whole is put together. A plain scalar
without text counts as a mapping without entries.
-/
def record {σ α : Type} (expected : String) (initial : σ)
    (take : σ → String → Path → Node Nat → Except Misfit σ) (finish : σ → Except Misfit α)
    (document : Document) (path : Path) (node : Node Nat) : Except Misfit α :=
  let node := document.resolve node
  placed path node.mark <|
    match node with
    | .mapping _ pairs _ => entries take document path initial pairs >>= finish
    | .scalar _ "" .plain _ => finish initial
    | _ => .error (unexpected node expected)

/-- A field that may come once only. -/
def once {α : Type} (key : String) (seen : Option α) (read : Except Misfit α)
    : Except Misfit (Option α) :=
  match seen with
  | some _ => .error (.duplicateField key)
  | none => read.map some

/-- A field that must be there. -/
def required {α : Type} (key : String) (seen : Option α) : Except Misfit α :=
  match seen with
  | some value => .ok value
  | none => .error (.missingField key)

end Decode
end DocPipeline.Yaml
