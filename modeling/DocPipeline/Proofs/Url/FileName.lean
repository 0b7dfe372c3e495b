import DocPipeline.Proofs.Except
import DocPipeline.Proofs.Files.Place
import DocPipeline.Proofs.Url.Percent
import DocPipeline.Url.Route

/-! The name of a file at an address. It is one name and leads to no other directory: the last
segment of a parsed address holds no slash, and segments of points have been resolved by then.
-/

namespace DocPipeline.Url

/-- The last segment, if there is one, holds no slash and is neither of the segments of points. -/
def EndsPlain (segments : List (List Char)) : Prop :=
  ∀ last, segments.getLast? = some last → '/' ∉ last ∧ last ≠ ['.'] ∧ last ≠ ['.', '.']

theorem endsPlain_append {segment : List Char} (segments : List (List Char))
    (single : '/' ∉ segment) (here : segment ≠ ['.']) (above : segment ≠ ['.', '.'])
    : EndsPlain (segments ++ [segment]) := by
  intro last same
  rw [List.getLast?_concat, Option.some.injEq] at same
  exact same ▸ ⟨single, here, above⟩

/-- A segment of points leaves an empty one at the end, and every other one stays as it is. -/
theorem addSegment_endsPlain (kind : Kind) (segments : List (List Char)) {segment : List Char}
    (single : '/' ∉ segment) : EndsPlain (addSegment kind true segments segment) := by
  unfold addSegment
  split
  · exact endsPlain_append _ List.not_mem_nil nofun nofun
  · next notAbove =>
      split
      · exact endsPlain_append _ List.not_mem_nil nofun nofun
      · next notHere =>
          split
          · refine endsPlain_append [] ?_ ?_ ?_
            · simp only [List.mem_append, List.mem_singleton, not_or]
              exact ⟨fun member => single (List.mem_of_mem_take member), by decide⟩
            · intro same
              have last := congrArg List.getLast? same
              simp at last
            · intro same
              have last := congrArg List.getLast? same
              simp at last
          · refine endsPlain_append segments single ?_ ?_
            · rintro rfl
              exact notHere (by decide)
            · rintro rfl
              exact notAbove (by decide)

/-- No slash gets into the segment in progress, by induction on the text. -/
theorem segmentsFrom_endsPlain (kind : Kind) (segments : List (List Char)) (current cs : List Char)
    (single : '/' ∉ current) : EndsPlain (segmentsFrom kind segments current cs) := by
  induction cs generalizing segments current with
  | nil =>
      refine addSegment_endsPlain kind segments fun member => ?_
      exact single (List.mem_reverse.mp (mem_of_mem_encode (by decide) member))
  | cons c rest ih =>
      unfold segmentsFrom
      split
      · exact ih _ _ List.not_mem_nil
      · next plain =>
          refine ih _ _ ?_
          rw [List.mem_cons, not_or]
          exact ⟨fun same => plain (by simp [isSlash, ← same]), single⟩

/-- A path has such segments, or none at all. -/
def Path.EndsPlain : Path → Prop
  | .segments names => Url.EndsPlain names
  | .opaquePath _ => True

-----------------------------------------------------------------------------------------
-- Characters of segments
-----------------------------------------------------------------------------------------

/-- No character of the text is one that paths reserve. -/
def Unreserved (text : List Char) : Prop :=
  ∀ c ∈ text, inPath c = false

/-- Whether a text is unreserved is decided one character after the other. -/
theorem unreserved_of_all {text : List Char}
    (all : text.all (fun c => !(isControl c || " \"<>\x60#?\x7b\x7d".toList.contains c)) = true)
    : Unreserved text := by
  rw [Unreserved, inPath_eq]
  simpa only [List.all_eq_true, Bool.not_eq_true'] using all

/-- Nothing reserved is left when a text is encoded, and no escape is made of it. -/
theorem unreserved_encode (cs : List Char) : Unreserved (encode inPath cs) := by
  intro c member
  by_cases escaping : c ∈ '%' :: "0123456789ABCDEF".toList
  · exact unreserved_of_all (by decide) c escaping
  · rw [← Bool.not_eq_true]
    exact fun reserved => not_mem_encode reserved escaping cs member

theorem mem_of_mem_above {kind : Kind} {segments : List (List Char)} {part : List Char}
    (member : part ∈ above kind segments) : part ∈ segments := by
  unfold above at member
  split at member
  · split at member
    · exact member
    · cases member
  · exact List.dropLast_subset _ member

/-- A segment is added as it is, as the letter of a drive, or not at all. -/
theorem addSegment_unreserved (kind : Kind) (last : Bool) {segments : List (List Char)}
    {segment : List Char} (before : ∀ part ∈ segments, Unreserved part) (own : Unreserved segment)
    : ∀ part ∈ addSegment kind last segments segment, Unreserved part := by
  have atEnd : ∀ part ∈ (if last then [[]] else [] : List (List Char)), Unreserved part := by
    intro part member c inside
    cases last <;> simp at member
    subst member
    cases inside
  unfold addSegment
  split
  · rw [List.forall_mem_append]
    exact ⟨fun part member => before part (mem_of_mem_above member), atEnd⟩
  · split
    · rw [List.forall_mem_append]
      exact ⟨before, atEnd⟩
    · split
      · intro part member c inside
        obtain rfl := List.mem_singleton.mp member
        rcases List.mem_append.mp inside with letter | colon
        · exact own c (List.mem_of_mem_take letter)
        · obtain rfl := List.mem_singleton.mp colon
          rw [inPath_eq]
          decide
      · rw [List.forall_mem_append, List.forall_mem_singleton]
        exact ⟨before, own⟩

/-- What is read is encoded before it is added, by induction on the text. -/
theorem segmentsFrom_unreserved (kind : Kind) {segments : List (List Char)}
    (current cs : List Char) (before : ∀ part ∈ segments, Unreserved part)
    : ∀ part ∈ segmentsFrom kind segments current cs, Unreserved part := by
  induction cs generalizing segments current with
  | nil => exact addSegment_unreserved kind true before (unreserved_encode _)
  | cons c rest ih =>
      unfold segmentsFrom
      split
      · exact ih _ (addSegment_unreserved kind false before (unreserved_encode _))
      · exact ih _ before

-----------------------------------------------------------------------------------------
-- Paths of addresses
-----------------------------------------------------------------------------------------

/-- A path as addresses have it: with the segments of a text, without any, or without a structure.
-/
inductive Path.IsRead : Path → Prop
  | named (kind : Kind) (cs : List Char) : IsRead (pathAfter kind [] cs)
  | none : IsRead (.segments [])
  | root : IsRead (.segments [[]])
  | opaquePath (text : List Char) : IsRead (.opaquePath text)

theorem pathOf_isRead (kind : Kind) (cs : List Char) : (pathOf kind cs).IsRead := by
  unfold pathOf
  split
  · split <;> exact .named kind _
  · split
    · exact .none
    · exact .root

theorem withAuthority_isRead {scheme cs : List Char} {url : Url}
    (parsed : withAuthority scheme cs = .ok url) : url.path.IsRead := by
  obtain ⟨_, _, parsed⟩ := Except.exists_of_bind_eq_ok parsed
  cases parsed
  exact pathOf_isRead _ _

theorem fileParts_isRead {cs host : List Char} {path : Path}
    (read : fileParts cs = .ok (host, path)) : path.IsRead := by
  unfold fileParts at read
  dsimp only at read
  split at read
  · obtain ⟨_, rfl⟩ := Prod.mk.inj (Except.ok.inj read)
    exact .named _ _
  · split at read
    · obtain ⟨_, rfl⟩ := Prod.mk.inj (Except.ok.inj read)
      exact pathOf_isRead _ _
    · obtain ⟨_, _, read⟩ := Except.exists_of_bind_eq_ok read
      obtain ⟨_, rfl⟩ := Prod.mk.inj (Except.ok.inj read)
      exact pathOf_isRead _ _

theorem file_isRead {cs : List Char} {url : Url} (parsed : file cs = .ok url)
    : url.path.IsRead := by
  unfold file at parsed
  dsimp only at parsed
  split at parsed
  · split at parsed
    · obtain ⟨⟨host, path⟩, read, parsed⟩ := Except.exists_of_bind_eq_ok parsed
      cases parsed
      exact fileParts_isRead read
    · cases parsed
      exact pathOf_isRead _ _
  · cases parsed
    exact pathOf_isRead _ _

/-- A parsed address has such a path, whichever way is taken. -/
theorem parse_isRead {s : String} {url : Url} (parsed : parse s = .ok url) : url.path.IsRead := by
  unfold parse at parsed
  split at parsed
  next scheme rest _ =>
    unfold afterScheme at parsed
    split at parsed
    · exact withAuthority_isRead parsed
    · exact file_isRead parsed
    · dsimp only at parsed
      split at parsed
      · exact withAuthority_isRead parsed
      · cases parsed
        exact .named _ _
      · cases parsed
        exact .opaquePath _
  next => cases parsed

namespace Path.IsRead

variable {path : Path}

theorem endsPlain (read : path.IsRead) : path.EndsPlain := by
  cases read with
  | named kind cs => exact segmentsFrom_endsPlain kind [] [] cs List.not_mem_nil
  | none => exact nofun
  | root => exact endsPlain_append [] List.not_mem_nil nofun nofun
  | opaquePath => trivial

theorem unreserved {names : List (List Char)} (read : path.IsRead)
    (segmented : path = .segments names) : ∀ name ∈ names, Unreserved name := by
  cases read with
  | named kind cs =>
      cases segmented
      exact segmentsFrom_unreserved kind [] cs nofun
  | none =>
      cases segmented
      exact nofun
  | root =>
      cases segmented
      rw [List.forall_mem_singleton]
      exact nofun
  | opaquePath => cases segmented

end Path.IsRead

-----------------------------------------------------------------------------------------
-- Names of files
-----------------------------------------------------------------------------------------

/-- The name of a file is the last segment of its address, if that has an extension, and otherwise
the standard one.
-/
theorem fileName_cases (s : String)
    : fileName s = standardFileName
      ∨ ∃ url names last,
          parse s = .ok url ∧ url.path = .segments names ∧ names.getLast? = some last
          ∧ '.' ∈ last ∧ fileName s = String.ofList last := by
  cases parsed : parse s with
  | error _ => exact .inl (by rw [fileName, parsed])
  | ok url =>
      cases found : url.segments.getLast? with
      | none => exact .inl (by simp only [fileName, parsed, found])
      | some last =>
          by_cases suits : (!last.isEmpty && last.contains '.') = true
          · rw [Bool.and_eq_true, List.contains_iff_mem] at suits
            unfold segments at found
            cases path : url.path with
            | segments names =>
                rw [path] at found
                refine .inr ⟨url, names, last, rfl, path, found, suits.2, ?_⟩
                simp only [fileName, parsed, segments, path, found]
                simp [suits.1, suits.2]
            | opaquePath text =>
                rw [path] at found
                cases found
          · exact .inl (by simp only [fileName, parsed, found, if_neg suits])

/-- The name of the file at an address is a name, and leads to no directory above. -/
theorem fileName_isName (s : String)
    : Path.IsName (fileName s).toList ∧ (fileName s).toList ≠ Path.above := by
  rcases fileName_cases s with standard | ⟨url, names, last, parsed, path, found, pointed, name⟩
  · rw [standard]
    exact ⟨⟨by decide, by decide, by decide⟩, by decide⟩
  · have plain := (parse_isRead parsed).endsPlain
    rw [path] at plain
    obtain ⟨single, here, above⟩ := plain last found
    rw [name, String.toList_ofList]
    exact ⟨⟨List.ne_nil_of_mem pointed, single, here⟩, above⟩

/-- It has a point, and no character that paths reserve. -/
theorem fileName_spelled (s : String)
    : '.' ∈ (fileName s).toList ∧ Unreserved (fileName s).toList := by
  rcases fileName_cases s with standard | ⟨url, names, last, parsed, path, found, pointed, name⟩
  · rw [standard]
    exact ⟨by decide, unreserved_of_all (by decide)⟩
  · rw [name, String.toList_ofList]
    exact ⟨pointed, (parse_isRead parsed).unreserved path last (List.mem_of_getLast? found)⟩

end DocPipeline.Url
