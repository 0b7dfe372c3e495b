import DocPipeline.Proofs.Json.Tolerance
import DocPipeline.Proofs.Text.Pieces

/-! Texts are read so that later services may say more. Any text is JSON exactly if the grammar
derives it, and what it decodes to stays the same when its objects are rearranged, enlarged by
unknown fields, or spelled with other white space.
-/

namespace DocPipeline

open Json Json.Decode

variable {α : Type} {admits : Json → Prop} {form : Form} {read : Json → Option α}

/-- Whatever a text decodes to, any spelling of what it spells after changes that are none to the
reader decodes to as well, and to nothing else.
-/
def ReadsAlike (admits : Json → Prop) (form : Form) (read : Json → Option α) : Prop :=
  ∀ text json, Spelled text json → ∀ other, Relation.ReflTransGen (Edit admits form) json other →
    ∀ text', Spelled text' other → ∀ value, ReadsBack read text' value ↔ ReadsBack read text value

/-- A text in which a known name comes twice does not decode. -/
def ReadsOnce (form : Form) (read : Json → Option α) : Prop :=
  ∀ text json, Spelled text json → Repeats form json → ∀ value, ¬ ReadsBack read text value

/-- A text that decodes to a value, once the field is left out there, decodes to the value with
the default.
-/
def ReadsDefault (read : Json → Option α) (place : Json → Json) (name : String) (reset : α → α)
    : Prop :=
  ∀ front value behind text text',
    Spelled text (place (.object (front ++ (some name, value) :: behind))) →
    Spelled text' (place (.object (front ++ behind))) →
    ∀ v, ReadsBack read text v → ReadsBack read text' (reset v)

theorem readsBack_iff {text : String} {json : Json} {value : α} (spelled : Spelled text json)
    : ReadsBack read text value ↔ read json = some value := by
  rw [ReadsBack, ofText_eq_some_iff.mpr spelled, Option.bind_some]

/-- Any number of changes keeps what is read, by induction on their run. -/
theorem readsAlike_of_keeps
    (keeps : ∀ {json other}, Edit admits form json other → read other = read json)
    : ReadsAlike admits form read := by
  intro text json spelled other edits text' respelled value
  have same : read other = read json := by
    clear respelled
    induction edits with
    | refl => rfl
    | tail _ edit ih => rw [keeps edit, ih]
  rw [readsBack_iff respelled, readsBack_iff spelled, same]

theorem readsOnce_of_refuses (refuses : ∀ {json}, Repeats form json → read json = none)
    : ReadsOnce form read := by
  intro text json spelled repeats value found
  rw [readsBack_iff spelled, refuses repeats] at found
  cases found

theorem readsDefault_of_leavesOut {place : Json → Json} {name : String} {reset : α → α}
    (leavesOut : LeavesOut read place name reset) : ReadsDefault read place name reset := by
  intro front value behind text text' spelled without v found
  rw [readsBack_iff spelled] at found
  rw [readsBack_iff without, leavesOut front value behind v found]

/-- Texts are read forward: any value may stand in an unknown field, and known names come once. -/
structure ReadsForward (form : Form) (read : Json → Option α) : Prop where
  alike : ReadsAlike (fun _ => True) form read
  once : ReadsOnce form read

theorem readsForward_of_tolerates (tolerates : ∀ {admits}, Tolerates admits form read)
    : ReadsForward form read where
  alike := readsAlike_of_keeps fun edit => tolerates.keeps _ _ edit
  once := readsOnce_of_refuses fun repeats => (@tolerates fun _ => True).refuses _ repeats

-----------------------------------------------------------------------------------------
-- Texts of changed values
-----------------------------------------------------------------------------------------

/-- A change by a value that can be spelled out leaves a value that can, by induction on where the
change is.
-/
theorem isSpellable_of_edit {json other : Json} (edit : Edit IsSpellable form json other)
    (spellable : IsSpellable json) : IsSpellable other := by
  induction edit with
  | order perm =>
      rw [isSpellable_object_iff] at spellable ⊢
      exact fun field member => spellable field (perm.mem_iff.mpr member)
  | @unknown _ front behind name value fresh admitted =>
      obtain ⟨key, _, named⟩ := isString_text (s := some name) rfl
      rw [isSpellable_object_iff, List.forall_mem_append] at spellable
      rw [isSpellable_object_iff, List.forall_mem_append, List.forall_mem_cons]
      exact ⟨spellable.1, ⟨⟨key, named⟩, admitted⟩, spellable.2⟩
  | field _ _ ih =>
      rw [isSpellable_object_iff, List.forall_mem_append, List.forall_mem_cons] at spellable ⊢
      exact ⟨spellable.1, ⟨spellable.2.1.1, ih spellable.2.1.2⟩, spellable.2.2⟩
  | item _ ih =>
      rw [isSpellable_array_iff, List.forall_mem_append, List.forall_mem_cons] at spellable ⊢
      exact ⟨spellable.1, ih spellable.2.1, spellable.2.2⟩

theorem exists_spelled_of_edits {text : String} {json other : Json} (spelled : Spelled text json)
    (edits : Relation.ReflTransGen (Edit IsSpellable form) json other)
    : ∃ text', Spelled text' other := by
  rw [exists_spelled_iff]
  induction edits with
  | refl => exact exists_spelled_iff.mp ⟨text, spelled⟩
  | tail _ edit ih => exact isSpellable_of_edit edit ih

/-- The bytes of a text are read like the text. -/
theorem ofBytes_encode (text : String) : ofBytes (Text.Utf8.encode text) = ofText text := by
  have whole := Text.Utf8.pieces_append text.toList []
  rw [List.append_nil, Text.Utf8.pieces, List.append_nil] at whole
  unfold ofBytes ofText symbolsOfBytes symbolsOfText Text.Utf8.encode
  rw [whole, List.flatMap_map]
  exact congrArg ofSymbols (List.flatMap_pure_eq_map some text.toList)

-----------------------------------------------------------------------------------------
-- Everything that is read
-----------------------------------------------------------------------------------------

/-- What is read as JSON is what its grammar derives, be it a text or the bytes of one. -/
structure ReadsGrammar : Prop where
  numbers : ∀ cs, IsNumeral cs ↔ IsNumber cs
  strings : ∀ cs, (∃ s, IsString cs s) ↔ IsQuoted cs
  texts : ∀ text json, ofText text = some json ↔ Spelled text json
  bytes : ∀ text, ofBytes (Text.Utf8.encode text) = ofText text
  changed : ∀ form text json other, Spelled text json →
    Relation.ReflTransGen (Edit IsSpellable form) json other → ∃ text', Spelled text' other

/-- Fields of tasks, children, graphs and lists that are left out have their defaults. -/
structure ReadsDefaults : Prop where
  task : ∀ field ∈ Task.defaults, ReadsDefault Task.ofJson itself field.1 field.2
  someTask : ∀ field ∈ Task.defaults, ∀ front behind,
    ReadsDefault (list Task.ofJson) (inItem front behind) field.1
      (·.modify front.length field.2)
  tasks : ReadsDefault Wire.tasks itself "tasks" fun _ => []
  tasksItem : ∀ field ∈ Task.defaults, ∀ ahead front behind after,
    ReadsDefault Wire.tasks (inField ahead "tasks" after ∘ inItem front behind) field.1
      (·.modify front.length field.2)
  listing : ReadsDefault Wire.listing itself "content_tree_metadata" fun _ => []
  listingItem : ∀ field ∈ Wire.Child.defaults, ∀ ahead front behind after,
    ReadsDefault Wire.listing (inField ahead "content_tree_metadata" after ∘ inItem front behind)
      field.1 (·.modify front.length field.2)
  description : ReadsDefault Graph.ofJson itself "description" fun graph =>
    { graph with description := none }
  source : ∀ ahead front behind after,
    ReadsDefault Graph.ofJson (inField ahead "extraction_policies" after ∘ inItem front behind)
      "content_source" fun graph =>
        { graph with
          policies := graph.policies.modify front.length fun policy =>
            { policy with source := none } }

theorem readsGrammar : ReadsGrammar where
  numbers _ := isNumeral_iff
  strings _ := exists_isString_iff
  texts _ _ := ofText_eq_some_iff
  bytes := ofBytes_encode
  changed _ _ _ _ := exists_spelled_of_edits

theorem readsDefaults : ReadsDefaults where
  task _ member := readsDefault_of_leavesOut (Task.leavesOut member)
  someTask _ member front behind :=
    readsDefault_of_leavesOut (leavesOut_item (Task.leavesOut member) front behind)
  tasks := readsDefault_of_leavesOut (Wire.readsPart_tasks.leavesOut rfl)
  tasksItem _ member ahead front behind after :=
    readsDefault_of_leavesOut (Wire.readsPart_tasks.leavesOut_inside (fun _ => rfl)
      (leavesOut_item (Task.leavesOut member) front behind) ahead after)
  listing := readsDefault_of_leavesOut (Wire.readsPart_listing.leavesOut rfl)
  listingItem _ member ahead front behind after :=
    readsDefault_of_leavesOut (Wire.readsPart_listing.leavesOut_inside (fun _ => rfl)
      (leavesOut_item (Wire.Child.leavesOut member) front behind) ahead after)
  description := readsDefault_of_leavesOut (Graph.readsPart_description.leavesOut rfl)
  source ahead front behind after :=
    readsDefault_of_leavesOut (Graph.readsPart_policies.leavesOut_inside (fun _ => rfl)
      (leavesOut_item Policy.leavesOut_source front behind) ahead after)

/-- Everything that comes as JSON is read so that later services may say more. -/
theorem reads_forward
    : ReadsGrammar
      ∧ ReadsForward Task.form Task.ofJson
      ∧ ReadsForward (.list Task.form) (list Task.ofJson)
      ∧ ReadsForward Delivery.form Delivery.ofJson
      ∧ ReadsForward Tally.form Tally.ofJson
      ∧ ReadsForward Graph.form Graph.ofJson
      ∧ ReadsForward Wire.contentForm Wire.content
      ∧ ReadsForward Wire.tasksForm Wire.tasks
      ∧ ReadsForward Wire.listingForm Wire.listing
      ∧ ReadsAlike Status.IsBearable Status.form Status.ofJson
      ∧ ReadsOnce Status.tagForm Status.ofJson
      ∧ ReadsDefaults :=
  ⟨readsGrammar, readsForward_of_tolerates Task.tolerates,
    readsForward_of_tolerates (tolerates_list Task.tolerates),
    readsForward_of_tolerates Delivery.tolerates, readsForward_of_tolerates Tally.tolerates,
    readsForward_of_tolerates Graph.tolerates, readsForward_of_tolerates Wire.content_tolerates,
    readsForward_of_tolerates Wire.tasks_tolerates,
    readsForward_of_tolerates Wire.listing_tolerates, readsAlike_of_keeps Status.keeps,
    readsOnce_of_refuses Status.refuses, readsDefaults⟩

/-- A list of one task, behind other fields of the list. -/
def oneTask (more fields : List (Option String × Json)) : Json :=
  .object (more ++ [(some "tasks", .array [.object fields])])

/-- The name and the outcome of a task. -/
def successFields : List (Option String × Json) :=
  [(some "id", .text "t"), (some "outcome", .text "Success")]

/-- A list of one task that succeeded. -/
def successText : String :=
  "\x7b\"tasks\":[\x7b\"id\":\"t\",\"outcome\":\"Success\"\x7d]\x7d"

/-- The same list with white space, a field more, and the fields of the task turned round. -/
def turnedText : String :=
  " \x7b\"page\":[0,\x7b\x7d],\n\"tasks\":[\x7b\"outcome\":\"Success\", \"id\":\"t\"\x7d]\x7d\n"

/-- What the text spells: the white space is between its parts, and the number is a zero. -/
theorem spelled_turnedText
    : Spelled turnedText (oneTask [(some "page", .array [.number ['0'], .object []])]
        successFields.reverse) := by
  have named (s : String) : IsString (s.toList.flatMap Writer.char ++ ['"']) (some s) :=
    fun rest => string_text rest s
  have zero : Spells ['0'] (.number ['0']) :=
    .number (isNumeral_iff.mpr (.positive .zero .nil .nil))
  have page : Spells _ (.array [.number ['0'], .object []]) :=
    .array (.cons isBlank_nil isBlank_nil zero
      (.cons isBlank_nil isBlank_nil (.object (.nil isBlank_nil)) (.nil isBlank_nil)))
  have task : Spells _ (.object successFields.reverse) :=
    .object (.cons isBlank_nil isBlank_nil (named "outcome") isBlank_nil isBlank_nil
      (.string (named "Success"))
      (.cons isBlank_nil isBlank_space (named "id") isBlank_nil isBlank_nil (.string (named "t"))
        (.nil isBlank_nil)))
  have tasks : Spells _ (.array [.object successFields.reverse]) :=
    .array (.cons isBlank_nil isBlank_nil task (.nil isBlank_nil))
  exact ⟨[' '], _, ['\n'], by decide +kernel, isBlank_space,
    .object (.cons isBlank_nil isBlank_nil (named "page") isBlank_nil isBlank_nil page
      (.cons isBlank_nil isBlank_newline (named "tasks") isBlank_nil isBlank_nil tasks
        (.nil isBlank_nil))), isBlank_newline⟩

/-- The same list without the outcome of the task. -/
def bareText : String :=
  "\x7b\"tasks\":[\x7b\"id\":\"t\"\x7d]\x7d"

/-- A list of one task that is named twice. -/
def twiceText : String :=
  "\x7b\"tasks\":[\x7b\"id\":\"t\",\"id\":\"t\"\x7d]\x7d"

/-- The state of a job that is not done. -/
def pendingText : String :=
  "\x7b\"state\":\"pending\"\x7d"

/-- The same state behind another field. -/
def enlargedText : String :=
  "\x7b\"x\":0,\"state\":\"pending\"\x7d"

/-- A list of one task reads the same when it is turned round and enlarged; without its outcome the
task has none that is known, and named twice it is no task. A state reads the same behind an unknown
field.
-/
theorem reads_forward_of_turned
    : ReadsBack Wire.tasks successText [⟨"t", "", .success⟩]
      ∧ ReadsBack Wire.tasks turnedText [⟨"t", "", .success⟩]
      ∧ ReadsBack Wire.tasks bareText [⟨"t", "", .unknown⟩]
      ∧ (∀ tasks, ¬ ReadsBack Wire.tasks twiceText tasks)
      ∧ ReadsBack Status.ofJson enlargedText .pending := by
  obtain ⟨_, _, _, _, _, _, _, ⟨alike, once⟩, _, state, _, defaults⟩ := reads_forward
  have success : ofText successText = some (oneTask [] successFields) := by cbv
  have bare : ofText bareText = some (oneTask [] [(some "id", .text "t")]) := by cbv
  have twice : ofText twiceText
      = some (oneTask [] [(some "id", .text "t"), (some "id", .text "t")]) := by
    cbv
  have found : ReadsBack Wire.tasks successText [⟨"t", "", .success⟩] := by
    rw [ReadsBack, success]
    decide +kernel
  refine ⟨found, ?_, ?_, ?_, ?_⟩
  · have inside : Edit (fun _ => True) Task.form (.object successFields)
        (.object successFields.reverse) := .order (List.reverse_perm _).symm
    have around : Edit (fun _ => True) Wire.tasksForm (oneTask [] successFields)
        (oneTask [] successFields.reverse) :=
      @Edit.field _ _ [] [] _ _ _ _ List.mem_cons_self (@Edit.item _ _ [] [] _ _ inside)
    have enlarged : Edit (fun _ => True) Wire.tasksForm (oneTask [] successFields.reverse)
        (oneTask [(some "page", .array [.number ['0'], .object []])] successFields.reverse) :=
      @Edit.unknown _ _ [] _ _ _ (by decide) trivial
    have kept := alike _ _ (ofText_eq_some_iff.mp success) _
      ((Relation.ReflTransGen.single around).tail enlarged) _ spelled_turnedText
    exact (kept _).mpr found
  · exact defaults.tasksItem _ (List.mem_cons_of_mem _ List.mem_cons_self) [] [] [] []
      [(some "id", .text "t")] (.text "Success") [] _ _ (ofText_eq_some_iff.mp success)
      (ofText_eq_some_iff.mp bare) _ found
  · refine once _ _ (ofText_eq_some_iff.mp twice) ?_
    have inside : Repeats Task.form (.object [(some "id", .text "t"), (some "id", .text "t")]) :=
      @Repeats.twice _ [] [] [] _ _ _ List.mem_cons_self
    exact @Repeats.field _ [] [] _ _ _ List.mem_cons_self (@Repeats.item _ [] [] _ inside)
  · have pending : ofText pendingText = some (.object [(some "state", .text "pending")]) := by
      cbv
    have enlarged : ofText enlargedText
        = some (.object [(some "x", .number ['0']), (some "state", .text "pending")]) := by
      have zero : IsNumeral ['0'] := isNumeral_iff.mpr (.positive .zero .nil .nil)
      have written : enlargedText = Json.compact
          (.object [(some "x", .number ['0']), (some "state", .text "pending")]) := by
        decide +kernel
      rw [written, ofText_compact]
      exact ⟨rfl, zero, rfl, rfl, trivial⟩
    have found : ReadsBack Status.ofJson pendingText .pending := by
      rw [ReadsBack, pending]
      decide +kernel
    have bearable : Status.IsBearable (.number ['0']) := ⟨by decide +kernel, by decide⟩
    have edit : Edit Status.IsBearable Status.form (.object [(some "state", .text "pending")])
        (.object [(some "x", .number ['0']), (some "state", .text "pending")]) :=
      @Edit.unknown _ _ [] _ _ _ (by decide) bearable
    have kept := state _ _ (ofText_eq_some_iff.mp pending) _ (.single edit) _
      (ofText_eq_some_iff.mp enlarged)
    exact (kept _).mpr found

end DocPipeline
