import DocPipeline.Proofs.Files.Entry
import DocPipeline.Proofs.Url.FileName
import DocPipeline.Proofs.Url.Tail
import DocPipeline.Service.Form

/-! Names of documents from the web. Whatever an address looks like, the name that is made of it is
that of one entry in any directory, and its query and fragment have no say in it.
-/

namespace DocPipeline.Url

/-- The name is made of the path, so it is the same for addresses that differ in their tails. -/
theorem fileName_eq_of_withoutTail {s t : String}
    (same : (parse s).map withoutTail = (parse t).map withoutTail) : fileName s = fileName t := by
  unfold fileName
  cases first : parse s with
  | error _ =>
      cases second : parse t with
      | error _ => rfl
      | ok url =>
          rw [first, second] at same
          cases same
  | ok url =>
      cases second : parse t with
      | error _ =>
          rw [first, second] at same
          cases same
      | ok other =>
          rw [first, second] at same
          have heads : url.withoutTail = other.withoutTail := Except.ok.inj same
          have path := congrArg Url.path heads
          simp only [path_withoutTail] at path
          simp only [segments, path]

/-- The name of a document from the web is a proper name with a point, whatever its address: no path
and neither the directory itself nor the one above. In every directory it is the name of an entry
directly inside, under which the document is also sent. Addresses that differ in query and fragment
only suggest the same name, and so does a text with a query or a fragment behind it, unless it ends
in padding, which would then belong to the path.
-/
theorem fileName_names_one_entry (address : String)
    : let name := fileName address
      (name ≠ "" ∧ '.' ∈ name.toList ∧ '/' ∉ name.toList ∧ '\x00' ∉ name.toList
        ∧ name ≠ "." ∧ name ≠ "..")
      ∧ (∀ directory,
          Path.names (Path.join directory name) = Path.names directory ++ [name.toList]
          ∧ Form.fileName (Path.join directory name) = name
          ∧ ∀ tree : Tree,
              tree.placeOf (Path.join directory name) = tree.placeOf directory ++ [name.toList]
              ∧ ∀ spot, tree.spot (Path.join directory name) = .ok spot
                → spot.location = tree.placeOf directory ++ [name.toList])
      ∧ (∀ other, (parse other).map withoutTail = (parse address).map withoutTail
          → fileName other = name)
      ∧ ∀ tail last,
          address.toList.getLast? = some last → isPadding last = false
          → (∀ c ∈ address.toList, endsPath c = false)
          → (∀ c ∈ tail.toList.head?, endsPath c = true)
          → fileName (address ++ tail) = name := by
  intro name
  obtain ⟨named, below⟩ : Path.IsName name.toList ∧ name.toList ≠ Path.above :=
    fileName_isName address
  obtain ⟨pointed, unreserved⟩ : '.' ∈ name.toList ∧ Unreserved name.toList :=
    fileName_spelled address
  refine ⟨⟨?_, pointed, named.single, ?_, ?_, ?_⟩, ?_, ?_, ?_⟩
  · intro empty
    exact named.spoken (by rw [empty]; rfl)
  · intro zero
    have kept := unreserved '\x00' zero
    rw [inPath_eq] at kept
    exact absurd kept (by decide)
  · intro here
    exact named.moves (by rw [here]; rfl)
  · intro above
    exact below (by rw [above]; rfl)
  · intro directory
    refine ⟨Path.names_join named, ?_, fun tree => ?_⟩
    · rw [Form.fileName, Path.fileName?_join named below]
      exact String.ofList_toList
    · have place : tree.placeOf (Path.join directory (fileName address))
          = tree.placeOf directory ++ [(fileName address).toList] :=
        Tree.placeOf_join tree named below
      exact ⟨place, fun spot found => (Tree.spot_location found).trans place⟩
  · intro other same
    exact fileName_eq_of_withoutTail same
  · intro tail last ends solid inside marked
    exact fileName_eq_of_withoutTail
      (parse_eq_of_beforeTail (beforeTail_cleaned_append ends solid inside marked))

/-- What stands behind the path of an address does not change the entry of its name. -/
theorem fileName_names_one_entry_of_query
    : let address := "http://h/a.b"
      fileName (address ++ "?x=/c.d") = "a.b"
      ∧ Path.names (Path.join "in/" (fileName (address ++ "?x=/c.d")))
        = ["in".toList, "a.b".toList] := by
  intro address
  obtain ⟨_, entry, _, tail⟩ := fileName_names_one_entry address
  have named : fileName address = "a.b" := by decide +kernel
  have same : fileName (address ++ "?x=/c.d") = fileName address :=
    tail "?x=/c.d" 'b' (by decide) (by decide) (by simp [address, endsPath])
      (by simp [endsPath])
  obtain ⟨names, _⟩ := entry "in/"
  rw [same]
  exact ⟨named, by rw [names, named]; decide⟩

/-- A last segment that leads to the directory above leaves no name, however it is spelled. -/
example : fileName "http://h/a.b/.%2E?x=/c.d" = "downloaded.pdf" := by
  decide +kernel

end DocPipeline.Url
