import DocPipeline.Proofs.Text.Pieces
import DocPipeline.Service.Form
import Mathlib.Data.List.Basic

/-! Names and types of the files that are sent. The type follows the extension of the name, whatever
the size of its letters. The head of a part tells both, and can be read whatever the name is.
-/

namespace DocPipeline

namespace Path

theorem not_point_of_pointless {cs : List Char} (pointless : '.' ∉ cs)
    : ∀ c ∈ cs.reverse, (c != '.') = true := by
  intro c member
  have other : c ≠ '.' := fun same => pointless (same ▸ List.mem_reverse.mp member)
  simpa using other

theorem extension?_of_pointless {name : List Char} (pointless : '.' ∉ name)
    : extension? name = none := by
  have whole : (name.reverse ++ []).takeWhile (· != '.') = name.reverse ++ [] :=
    List.takeWhile_append_of_pos (not_point_of_pointless pointless)
  rw [List.append_nil] at whole
  simp [extension?, whole]

theorem extension?_append {stem ending : List Char} (pointless : '.' ∉ ending)
    : extension? (stem ++ '.' :: ending) = if stem = [] then none else some ending := by
  have behind : (stem ++ '.' :: ending).reverse.takeWhile (· != '.') = ending.reverse := by
    rw [List.reverse_append, List.reverse_cons, List.append_assoc,
      List.takeWhile_append_of_pos (not_point_of_pointless pointless)]
    simp
  have whole : (stem ++ '.' :: ending).length = stem.length + ending.length + 1 := by
    rw [List.length_append, List.length_cons, Nat.add_assoc]
  unfold extension?
  rw [behind, whole, List.reverse_reverse]
  cases stem with
  | nil => simp
  | cons first rest =>
      have inside : ending.length + 1 < (first :: rest).length + ending.length + 1 := by
        rw [List.length_cons]
        omega
      exact (if_pos inside).trans (if_neg (List.cons_ne_nil first rest)).symm

/-- An extension stands behind the last point of a name, with something before that point. -/
theorem extension?_eq_some_iff {name ending : List Char}
    : extension? name = some ending
      ↔ ∃ stem, stem ≠ [] ∧ name = stem ++ '.' :: ending ∧ '.' ∉ ending := by
  constructor
  · intro found
    by_cases pointed : '.' ∈ name
    · obtain ⟨back, front, split, pointless⟩ :=
        List.eq_append_cons_of_mem (List.mem_reverse.mpr pointed)
      rw [← List.mem_reverse] at pointless
      have whole : name = front.reverse ++ '.' :: back.reverse := by
        rw [← List.reverse_reverse name, split]
        simp
      rw [whole, extension?_append pointless] at found
      simp only [Option.ite_none_left_eq_some, Option.some.injEq] at found
      obtain ⟨something, rfl⟩ := found
      exact ⟨front.reverse, something, whole, pointless⟩
    · rw [extension?_of_pointless pointed] at found
      cases found
  · rintro ⟨stem, something, rfl, pointless⟩
    rw [extension?_append pointless, if_neg something]

/-- A name ends in a point and an extension, whose letters may be small or not. -/
def HasExtension (name extension : List Char) : Prop :=
  ∃ stem ending, stem ≠ [] ∧ name = stem ++ '.' :: ending ∧ ending.map Char.toLower = extension

theorem hasExtension_iff {name extension : List Char} (pointless : '.' ∉ extension)
    : HasExtension name extension
      ↔ (extension? name).map (List.map Char.toLower) = some extension := by
  simp only [HasExtension, Option.map_eq_some_iff, extension?_eq_some_iff]
  constructor
  · rintro ⟨stem, ending, something, rfl, rfl⟩
    refine ⟨ending, ⟨stem, something, rfl, ?_⟩, rfl⟩
    intro member
    exact pointless (List.mem_map.mpr ⟨'.', member, rfl⟩)
  · rintro ⟨ending, ⟨stem, something, rfl, _⟩, same⟩
    exact ⟨stem, ending, something, rfl, same⟩

end Path

namespace Form

/-- The type of a file by the name under which it is sent. A path without a name has the type of the
standard name.
-/
theorem mimeType_eq (path : String)
    : mimeType path =
        let written := (Path.extension? (fileName path).toList).map (List.map Char.toLower)
        if written = some "pdf".toList then "application/pdf"
        else if written = some "txt".toList then "text/plain"
        else "application/octet-stream" := by
  unfold mimeType fileName
  cases Path.fileName? path with
  | none => rfl
  | some name =>
      simp only [Option.bind_some, Option.map_some, Option.getD_some, String.toList_ofList]
      cases Path.extension? name with
      | none => rfl
      | some extension =>
          have spelled (s : String)
              : String.ofList (extension.map Char.toLower) = s
                ↔ some (extension.map Char.toLower) = some s.toList := by
            rw [← String.toList_inj, String.toList_ofList, Option.some.injEq]
          simp only [Option.map_some]
          split
          · next pdf => rw [if_pos ((spelled _).mp pdf)]
          · next txt =>
              have written := (spelled _).mp txt
              rw [if_neg (by rw [written]; decide), if_pos written]
          · next notPdf notTxt =>
              rw [if_neg fun same => notPdf ((spelled _).mpr same),
                if_neg fun same => notTxt ((spelled _).mpr same)]

/-- A file is sent as a document or as plain text exactly when its name has the extension for that,
and as mere bytes otherwise.
-/
theorem mimeType_iff (path : String)
    : let name := (fileName path).toList
      (mimeType path = "application/pdf" ↔ Path.HasExtension name "pdf".toList)
      ∧ (mimeType path = "text/plain" ↔ Path.HasExtension name "txt".toList)
      ∧ (mimeType path = "application/octet-stream"
          ↔ ¬ Path.HasExtension name "pdf".toList ∧ ¬ Path.HasExtension name "txt".toList) := by
  intro name
  rw [Path.hasExtension_iff (by decide), Path.hasExtension_iff (by decide), mimeType_eq]
  generalize (Path.extension? (fileName path).toList).map (List.map Char.toLower) = written
  by_cases pdf : written = some "pdf".toList
  · simp [pdf]
  · by_cases txt : written = some "txt".toList
    · simp [txt]
    · simp only [pdf, txt]
      simp

-----------------------------------------------------------------------------------------
-- Heads
-----------------------------------------------------------------------------------------

/-- What the head of a part tells whoever gets the form. -/
structure Part where
  /-- The name of the part. -/
  name : String
  fileName : String
  type : String
deriving DecidableEq, Repr

/-- A text up to the mark that ends it, and what stands behind that mark. Whatever is behind a
backslash belongs to the text; but for that, no line ends in it.
-/
def readQuoted : List Char → Option (List Char × List Char)
  | [] => none
  | '"' :: rest => some ([], rest)
  | '\\' :: c :: rest => (readQuoted rest).map fun (text, behind) => (c :: text, behind)
  | c :: rest =>
    if c = '\\' ∨ c = '\r' ∨ c = '\n' then none
    else (readQuoted rest).map fun (text, behind) => (c :: text, behind)

/-- A part by its head: the name of the part and that of the file between marks, and the type on a
line of its own.
-/
def Part.ofHead? (head : Bytes) : Option Part := do
  let text ← (Text.Utf8.decode head).toOption
  let rest ← text.toList.dropPrefix? "Content-Disposition: form-data; name=\"".toList
  let (name, rest) ← readQuoted rest
  let rest ← rest.dropPrefix? "; filename=\"".toList
  let (fileName, rest) ← readQuoted rest
  let type ← rest.dropPrefix? "\r\nContent-Type: ".toList
  return ⟨String.ofList name, String.ofList fileName, String.ofList type⟩

/-- A name in a head is read up to its own end, by induction on its characters. -/
theorem readQuoted_guarded (name rest : List Char)
    : readQuoted (guarded (String.ofList name) ++ '"' :: rest) = some (name, rest) := by
  rw [guarded, String.toList_ofList]
  induction name with
  | nil => rfl
  | cons c name ih =>
      rw [List.flatMap_cons, List.append_assoc]
      by_cases guard : isGuarded c = true
      · rw [if_pos guard, List.cons_append, List.singleton_append, readQuoted, ih]
        rfl
      · have unmarked : c ≠ '"' := by
          rintro rfl
          exact guard rfl
        have inLine : ¬ (c = '\\' ∨ c = '\r' ∨ c = '\n') := by
          rintro (rfl | rfl | rfl) <;> exact guard rfl
        rw [if_neg guard, List.singleton_append, readQuoted, if_neg inLine, ih]
        · rfl
        · exact unmarked
        · exact fun _ _ same => absurd (.inl same) inLine

theorem dropPrefix?_append (front rest : List Char)
    : (front ++ rest).dropPrefix? front = some rest :=
  List.dropPrefix?_eq_some_iff.mpr ⟨front, rfl, beq_self_eq_true front⟩

/-- The head of a part tells that it holds a file, and the name and the type of the file. -/
theorem Part.ofHead?_head (name type : String)
    : Part.ofHead? (head name type) = some ⟨"file", name, type⟩ := by
  have field : guarded "file" = "file".toList := by decide
  have spelled : ("Content-Disposition: form-data; name=\"file\"; filename=\""
        ++ String.ofList (guarded name) ++ "\"\r\nContent-Type: " ++ type).toList
      = "Content-Disposition: form-data; name=\"".toList
        ++ (guarded "file" ++ '"' :: ("; filename=\"".toList
          ++ (guarded name ++ '"' :: ("\r\nContent-Type: ".toList ++ type.toList)))) := by
    rw [field]
    simp
  have file := readQuoted_guarded "file".toList
  have names := readQuoted_guarded name.toList
  rw [String.ofList_toList] at file names
  simp only [Part.ofHead?, head, Text.Utf8.decode_encode, Except.toOption, Option.bind_eq_bind,
    Option.bind_some, spelled, dropPrefix?_append, file, names, String.ofList_toList]
  rfl

end Form
end DocPipeline
