/-! Texts cut at a mark. -/

namespace DocPipeline.Text

/-- The parts of a text between the marks; there is one more of them than there are marks. -/
def splitAt (mark : Char) : List Char → List (List Char)
  | [] => [[]]
  | c :: rest =>
    if c == mark then [] :: splitAt mark rest
    else
      match splitAt mark rest with
      | first :: more => (c :: first) :: more
      | [] => [[c]]

/-- The parts put together again, with the mark between them. -/
def joinWith (mark : Char) (parts : List (List Char)) : List Char :=
  List.intercalate [mark] parts

end DocPipeline.Text
