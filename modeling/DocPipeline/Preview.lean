/-! The beginning of a text, counted in characters. The text is cut at a place in its bytes, which
is that of the first character that is left out.
-/

namespace DocPipeline

/-- The place of the character that is so many characters behind a place; none if the text ends
before it.
-/
def Text.placeBehind? {text : String} (place : text.Pos) : Nat → Option text.Pos
  | 0 => if place = text.endPos then none else some place
  | count + 1 =>
    if inside : place = text.endPos then none else placeBehind? (place.next inside) count

/-- At most `count` characters from the front of the text. -/
def preview (text : String) (count : Nat) : String :=
  match Text.placeBehind? text.startPos count with
  | some place => (text.sliceTo place).copy
  | none => text

end DocPipeline
