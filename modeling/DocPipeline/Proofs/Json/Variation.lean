import DocPipeline.Proofs.Json.Decode
import Mathlib.Data.List.Perm.Basic

/-! What is the same to a reader of records. Fields may come in another order, there may be fields
whose names the reader does not know, and both may be so inside the fields it does know; a name it
knows must not come twice. A field that is left out counts as its default.
-/

namespace DocPipeline.Json

/-- What a reader looks at: the whole value, the items of an array, or the fields of an object by
their names.
-/
inductive Form where
  | whole
  | list (item : Form)
  | record (fields : List (String × Form))

/-- Fields that are looked at as a whole. -/
def Form.plain (names : List String) : List (String × Form) :=
  names.map fun name => (name, .whole)

/-- One change to a value that is none to its reader: the fields of an object in another order, an
unknown field more, or such a change to a field or an item. Only admitted values may be added.
-/
inductive Edit (admits : Json → Prop) : Form → Json → Json → Prop
  | order {known : List (String × Form)} {before after : List (Option String × Json)}
    (perm : before.Perm after) : Edit admits (.record known) (.object before) (.object after)
  | unknown {known : List (String × Form)} {front behind : List (Option String × Json)}
    {name : String} {value : Json} (fresh : name ∉ known.map (·.1)) (admitted : admits value)
    : Edit admits (.record known) (.object (front ++ behind))
        (.object (front ++ (some name, value) :: behind))
  | field {known : List (String × Form)} {front behind : List (Option String × Json)}
    {name : String} {form : Form} {old new : Json} (isKnown : (name, form) ∈ known)
    (inside : Edit admits form old new)
    : Edit admits (.record known) (.object (front ++ (some name, old) :: behind))
        (.object (front ++ (some name, new) :: behind))
  | item {form : Form} {front behind : List Json} {old new : Json}
    (inside : Edit admits form old new)
    : Edit admits (.list form) (.array (front ++ old :: behind)) (.array (front ++ new :: behind))

/-- A name that the reader knows comes twice in an object, or does so in a field or an item. -/
inductive Repeats : Form → Json → Prop
  | twice {known : List (String × Form)} {front middle behind : List (Option String × Json)}
    {name : String} {first second : Json} (isKnown : name ∈ known.map (·.1))
    : Repeats (.record known)
        (.object (front ++ (some name, first) :: (middle ++ (some name, second) :: behind)))
  | field {known : List (String × Form)} {front behind : List (Option String × Json)}
    {name : String} {form : Form} {value : Json} (isKnown : (name, form) ∈ known)
    (inside : Repeats form value)
    : Repeats (.record known) (.object (front ++ (some name, value) :: behind))
  | item {form : Form} {front behind : List Json} {value : Json} (inside : Repeats form value)
    : Repeats (.list form) (.array (front ++ value :: behind))

variable {α β : Type}

/-- The reader finds the same in a value after any change that is none to it, and nothing in a
value in which a known name comes twice.
-/
structure Tolerates (admits : Json → Prop) (form : Form) (read : Json → Option α) : Prop where
  keeps : ∀ json other, Edit admits form json other → read other = read json
  refuses : ∀ json, Repeats form json → read json = none

/-- The value itself. -/
def itself (json : Json) : Json :=
  json

/-- An array with the value as one of its items. -/
def inItem (front behind : List Json) (json : Json) : Json :=
  .array (front ++ json :: behind)

/-- An object with the value in one of its fields. -/
def inField (front : List (Option String × Json)) (name : String)
    (behind : List (Option String × Json)) (json : Json) : Json :=
  .object (front ++ (some name, json) :: behind)

/-- Without the field, the object in that place of a value is read with a default instead. -/
def LeavesOut (read : Json → Option α) (place : Json → Json) (name : String) (reset : α → α)
    : Prop :=
  ∀ front value behind v, read (place (.object (front ++ (some name, value) :: behind))) = some v →
    read (place (.object (front ++ behind))) = some (reset v)

-----------------------------------------------------------------------------------------
-- Entries under a name
-----------------------------------------------------------------------------------------

open Decode

variable {name key : String} {value : Json} {front behind fields : List (Option String × Json)}

theorem entriesOf_append
    : entriesOf key (front ++ behind) = entriesOf key front ++ entriesOf key behind := by
  unfold entriesOf
  rw [List.filter_append, List.map_append]

theorem entriesOf_cons_self
    : entriesOf key ((some key, value) :: fields) = value :: entriesOf key fields := by
  unfold entriesOf
  rw [List.filter_cons_of_pos (by simp), List.map_cons]

theorem entriesOf_cons_of_ne (other : name ≠ key)
    : entriesOf key ((some name, value) :: fields) = entriesOf key fields := by
  unfold entriesOf
  rw [List.filter_cons_of_neg (by simpa using other)]

/-- A field under another name adds nothing under this one. -/
theorem entriesOf_insert_of_ne (other : name ≠ key)
    : entriesOf key (front ++ (some name, value) :: behind) = entriesOf key (front ++ behind) := by
  rw [entriesOf_append, entriesOf_append, entriesOf_cons_of_ne other]

theorem entry_congr {some other : List (Option String × Json)}
    (same : entriesOf key some = entriesOf key other) : entry some key = entry other key := by
  unfold entry
  rw [same]

/-- There is an entry, or none, if the name comes no more than once. -/
theorem entry_eq_some_iff {slot : Option Json}
    : entry fields key = some slot ↔ entriesOf key fields = slot.toList := by
  unfold entry
  cases entriesOf key fields with
  | nil => cases slot <;> simp
  | cons value more =>
      cases more with
      | nil => cases slot <;> simp
      | cons second more => cases slot <;> simp

/-- A permutation of at most one value is that value. -/
theorem perm_toList_iff {values : List Json} {slot : Option Json}
    : values.Perm slot.toList ↔ values = slot.toList := by
  cases slot with
  | none => exact List.perm_nil
  | some value => exact List.perm_singleton

/-- The entry under a name is the same in any order of the fields. -/
theorem entry_perm {before after : List (Option String × Json)} (perm : before.Perm after)
    (key : String) : entry before key = entry after key := by
  have values : (entriesOf key before).Perm (entriesOf key after) := (perm.filter _).map _
  apply Option.ext
  intro slot
  rw [entry_eq_some_iff, entry_eq_some_iff, ← perm_toList_iff, ← perm_toList_iff]
  exact ⟨values.symm.trans, values.trans⟩

/-- There is no entry under a name that comes twice. -/
theorem entry_twice {middle : List (Option String × Json)} {first second : Json}
    : entry (front ++ (some key, first) :: (middle ++ (some key, second) :: behind)) key
      = none := by
  rw [Option.eq_none_iff_forall_ne_some]
  intro slot found
  rw [entry_eq_some_iff, entriesOf_append, entriesOf_cons_self, entriesOf_append,
    entriesOf_cons_self] at found
  have length := congrArg List.length found
  have single : slot.toList.length ≤ 1 := by cases slot <;> simp
  simp only [List.length_append, List.length_cons] at length
  omega

-----------------------------------------------------------------------------------------
-- Slots of the known names
-----------------------------------------------------------------------------------------

variable {names : List String}

theorem slots_object (named : fields.all (·.1.isSome) = true)
    : slots names (.object fields) = names.mapM (entry fields) :=
  if_pos named

theorem slots_object_of_unnamed (unnamed : ¬ fields.all (·.1.isSome) = true)
    : slots names (.object fields) = none :=
  if_neg unnamed

theorem mapM_congr_of_mem {f g : α → Option β} {l : List α} (same : ∀ a ∈ l, f a = g a)
    : l.mapM f = l.mapM g := by
  induction l with
  | nil => rfl
  | cons a l ih =>
      rw [List.mapM_cons, List.mapM_cons, same a List.mem_cons_self,
        ih fun b member => same b (List.mem_cons_of_mem a member)]

theorem length_of_mapM {f : α → Option β} {l : List α} {found : List β}
    (each : l.mapM f = some found) : found.length = l.length := by
  induction l generalizing found with
  | nil =>
      cases each
      rfl
  | cons a l ih =>
      simp only [List.mapM_cons, Option.bind_eq_bind, Option.pure_def, Option.bind_eq_some_iff,
        Option.some.injEq] at each
      obtain ⟨b, _, others, rest, rfl⟩ := each
      rw [List.length_cons, List.length_cons, ih rest]

/-- Where one item is read as nothing, so is the list. -/
theorem mapM_eq_none_of_mem {f : α → Option β} {l : List α} {a : α} (member : a ∈ l)
    (lost : f a = none) : l.mapM f = none := by
  obtain ⟨before, after, rfl⟩ := List.append_of_mem member
  rw [List.mapM_append, List.mapM_cons, lost]
  cases before.mapM f <;> rfl

theorem slots_perm {before after : List (Option String × Json)} (perm : before.Perm after)
    : slots names (.object before) = slots names (.object after) := by
  by_cases named : before.all (·.1.isSome) = true
  · rw [slots_object named, slots_object (perm.all_eq ▸ named), funext (entry_perm perm)]
  · rw [slots_object_of_unnamed named, slots_object_of_unnamed (perm.all_eq ▸ named)]

/-- A field more does not change whether the others have names. -/
theorem all_named_insert
    : (front ++ (some name, value) :: behind).all (·.1.isSome)
      = (front ++ behind).all (·.1.isSome) := by
  simp

theorem slots_insert_of_fresh (fresh : name ∉ names)
    : slots names (.object (front ++ (some name, value) :: behind))
      = slots names (.object (front ++ behind)) := by
  have same : ∀ key ∈ names, entry (front ++ (some name, value) :: behind) key
      = entry (front ++ behind) key := by
    intro key member
    exact entry_congr (entriesOf_insert_of_ne fun equal => fresh (equal ▸ member))
  by_cases named : (front ++ behind).all (·.1.isSome) = true
  · rw [slots_object named, slots_object (all_named_insert.trans named), mapM_congr_of_mem same]
  · rw [slots_object_of_unnamed named,
      slots_object_of_unnamed (all_named_insert.symm ▸ named)]

theorem slots_twice {middle : List (Option String × Json)} {first second : Json}
    (isKnown : name ∈ names)
    : slots names (.object (front ++ (some name, first) ::
        (middle ++ (some name, second) :: behind))) = none := by
  by_cases named : (front ++ (some name, first) ::
      (middle ++ (some name, second) :: behind)).all (·.1.isSome) = true
  · rw [slots_object named, mapM_eq_none_of_mem isKnown entry_twice]
  · exact slots_object_of_unnamed named

/-- A field whose name comes again has no entry. -/
theorem entry_again (again : entriesOf key (front ++ behind) ≠ [])
    : entry (front ++ (some key, value) :: behind) key = none := by
  rw [Option.eq_none_iff_forall_ne_some]
  intro slot found
  rw [entry_eq_some_iff, entriesOf_append, entriesOf_cons_self] at found
  rw [entriesOf_append] at again
  have length := congrArg List.length found
  have single : slot.toList.length ≤ 1 := by cases slot <;> simp
  have more := List.length_pos_iff.mpr again
  simp only [List.length_append, List.length_cons] at length more
  omega

/-- A field whose name does not come again is the entry under it. -/
theorem entry_alone (alone : entriesOf key (front ++ behind) = [])
    : entry (front ++ (some key, value) :: behind) key = some (some value) := by
  rw [entriesOf_append, List.append_eq_nil_iff] at alone
  rw [entry_eq_some_iff, entriesOf_append, entriesOf_cons_self, alone.1, alone.2]
  rfl

theorem slots_parts {earlier later : List String} (named : fields.all (·.1.isSome) = true)
    : slots (earlier ++ name :: later) (.object fields)
      = (earlier.mapM (entry fields)).bind fun before =>
          (entry fields name).bind fun slot =>
            (later.mapM (entry fields)).bind fun after => some (before ++ slot :: after) := by
  rw [slots_object named, List.mapM_append, List.mapM_cons]
  cases earlier.mapM (entry fields) with
  | none => rfl
  | some before =>
      cases entry fields name with
      | none => rfl
      | some slot => cases later.mapM (entry fields) <;> rfl

/-- A known field has its slot. Unless its name comes again, it is alone in it: whatever the field
holds is in the slot, nothing is in it without the field, and the other slots stay as they are.
-/
theorem slots_around {earlier later : List String}
    (distinct : (earlier ++ name :: later).Nodup) (front behind : List (Option String × Json))
    : (∀ value, slots (earlier ++ name :: later)
        (.object (front ++ (some name, value) :: behind)) = none)
      ∨ ∃ before after, before.length = earlier.length ∧ after.length = later.length
        ∧ (∀ value, slots (earlier ++ name :: later)
            (.object (front ++ (some name, value) :: behind))
          = some (before ++ some value :: after))
        ∧ slots (earlier ++ name :: later) (.object (front ++ behind))
          = some (before ++ none :: after) := by
  by_cases named : (front ++ behind).all (·.1.isSome) = true
  case neg =>
    exact .inl fun value => slots_object_of_unnamed (all_named_insert.symm ▸ named)
  have namedInsert (value : Json)
      : (front ++ (some name, value) :: behind).all (·.1.isSome) = true :=
    all_named_insert.trans named
  by_cases alone : entriesOf name (front ++ behind) = []
  case neg =>
    refine .inl fun value => ?_
    rw [slots_object (namedInsert value)]
    exact mapM_eq_none_of_mem (by simp) (entry_again alone)
  have fresh : name ∉ earlier ++ later :=
    (List.nodup_cons.mp (List.perm_middle.nodup_iff.mp distinct)).1
  rw [List.mem_append, not_or] at fresh
  have others (value : Json) {keys : List String} (fresh : name ∉ keys)
      : keys.mapM (entry (front ++ (some name, value) :: behind))
        = keys.mapM (entry (front ++ behind)) :=
    mapM_congr_of_mem fun key member =>
      entry_congr (entriesOf_insert_of_ne fun equal => fresh (equal ▸ member))
  have without : entry (front ++ behind) name = some none := entry_eq_some_iff.mpr alone
  rw [slots_parts named, without]
  cases ahead : earlier.mapM (entry (front ++ behind)) with
  | none =>
      refine .inl fun value => ?_
      rw [slots_parts (namedInsert value), others value fresh.1, ahead]
      rfl
  | some before =>
      cases left : later.mapM (entry (front ++ behind)) with
      | none =>
          refine .inl fun value => ?_
          rw [slots_parts (namedInsert value), others value fresh.1, others value fresh.2, ahead,
            left, entry_alone alone]
          rfl
      | some after =>
          refine .inr ⟨before, after, length_of_mapM ahead, length_of_mapM left, ?_, rfl⟩
          intro value
          rw [slots_parts (namedInsert value), others value fresh.1, others value fresh.2, ahead,
            left, entry_alone alone]
          rfl

-----------------------------------------------------------------------------------------
-- Parts of what is read
-----------------------------------------------------------------------------------------

/-- A part of a value, which can be put anew. -/
structure Part (α β : Type) where
  get : α → β
  put : β → α → α

/-- The value is made of the part, and putting the part anew makes it of the new one. -/
def Part.IsMade (part : Part α β) (make : β → α) : Prop :=
  ∀ b, part.get (make b) = b ∧ ∀ c, part.put c (make b) = make c

/-- What is found in the field is the part of what is read, and goes into nothing else. -/
def ReadsPart (read : Json → Option α) (name : String) (slot : Option Json → Option β)
    (part : Part α β) : Prop :=
  ∀ front behind, ∃ make : Option (β → α),
    (∀ value, read (.object (front ++ (some name, value) :: behind))
      = make.bind fun f => (slot (some value)).map f)
    ∧ ∀ f ∈ make, read (.object (front ++ behind)) = (slot none).map f ∧ part.IsMade f

/-- Of so many slots, the one behind the earlier ones is that of the part. -/
def BuildsPart (build : List (Option Json) → Option α) (earlier later : Nat)
    (slot : Option Json → Option β) (part : Part α β) : Prop :=
  ∀ before after, before.length = earlier → after.length = later → ∃ make : Option (β → α),
    (∀ value, build (before ++ value :: after) = make.bind fun f => (slot value).map f)
    ∧ ∀ f ∈ make, part.IsMade f

variable {read : Json → Option α} {inner : Json → Option β} {slot : Option Json → Option β}
  {part : Part α β} {build : List (Option Json) → Option α} {admits : Json → Prop} {form : Form}

/-- The whole value is a part of itself. -/
def Part.whole : Part α α :=
  ⟨id, fun value _ => value⟩

/-- What is made of one slot is made of it as a whole. -/
theorem buildsPart_whole {slot : Option Json → Option α}
    (builds : ∀ value, build [value] = slot value)
    : BuildsPart build 0 0 slot .whole := by
  intro before after none none'
  rw [List.eq_nil_of_length_eq_zero none, List.eq_nil_of_length_eq_zero none']
  refine ⟨some id, fun value => ?_, ?_⟩
  · exact (builds value).trans Option.map_id'.symm
  · rintro f ⟨⟩ b
    exact ⟨rfl, fun _ => rfl⟩

section Three

variable {β₁ β₂ β₃ : Type} {first : Option Json → Option β₁} {second : Option Json → Option β₂}
  {third : Option Json → Option β₃} {make : β₁ → β₂ → β₃ → α}

/-- Of three slots, the second one is that of a part. -/
theorem buildsPart_second {part : Part α β₂}
    (builds : ∀ x y z, build [x, y, z] = (first x).bind fun a => (second y).bind fun b =>
      (third z).bind fun c => some (make a b c))
    (isMade : ∀ a c, part.IsMade fun b => make a b c) : BuildsPart build 1 1 second part := by
  intro before after one one'
  obtain ⟨x, rfl⟩ := List.length_eq_one_iff.mp one
  obtain ⟨z, rfl⟩ := List.length_eq_one_iff.mp one'
  refine ⟨(first x).bind fun a => (third z).map fun c b => make a b c, fun y => ?_, ?_⟩
  · refine (builds x y z).trans ?_
    cases first x with
    | none => rfl
    | some a => cases second y <;> cases third z <;> rfl
  · intro f isMake
    obtain ⟨a, _, isMake⟩ := Option.bind_eq_some_iff.mp isMake
    obtain ⟨c, _, rfl⟩ := Option.map_eq_some_iff.mp isMake
    exact isMade a c

/-- Of three slots, the third one is that of a part. -/
theorem buildsPart_third {part : Part α β₃}
    (builds : ∀ x y z, build [x, y, z] = (first x).bind fun a => (second y).bind fun b =>
      (third z).bind fun c => some (make a b c))
    (isMade : ∀ a b, part.IsMade (make a b)) : BuildsPart build 2 0 third part := by
  intro before after two none
  obtain ⟨x, y, rfl⟩ := List.length_eq_two.mp two
  rw [List.eq_nil_of_length_eq_zero none]
  refine ⟨(first x).bind fun a => (second y).map (make a), fun z => ?_, ?_⟩
  · refine (builds x y z).trans ?_
    cases first x with
    | none => rfl
    | some a => cases second y <;> cases third z <;> rfl
  · intro f isMake
    obtain ⟨a, _, isMake⟩ := Option.bind_eq_some_iff.mp isMake
    obtain ⟨b, _, rfl⟩ := Option.map_eq_some_iff.mp isMake
    exact isMade a b

end Three

/-- A reader that builds a part from its slot reads it from its field. -/
theorem readsPart_of_slots {earlier later : List String}
    (distinct : (earlier ++ name :: later).Nodup)
    (reads : ∀ json, read json = (slots (earlier ++ name :: later) json).bind build)
    (builds : BuildsPart build earlier.length later.length slot part)
    : ReadsPart read name slot part := by
  intro front behind
  rcases slots_around distinct front behind with
    lost | ⟨before, after, ahead, left, present, without⟩
  · refine ⟨none, fun value => ?_, fun f made => by cases made⟩
    rw [reads, lost]
    rfl
  · obtain ⟨make, made, isMade⟩ := builds before after ahead left
    refine ⟨make, fun value => ?_, fun f isMake => ⟨?_, isMade f isMake⟩⟩
    · rw [reads, present, Option.bind_some, made]
    · rw [reads, without, Option.bind_some, made, Option.mem_def.mp isMake, Option.bind_some]

namespace ReadsPart

theorem congr (reads : ReadsPart read name slot part) {old new : Json}
    (same : slot (some new) = slot (some old))
    : read (.object (front ++ (some name, new) :: behind))
      = read (.object (front ++ (some name, old) :: behind)) := by
  obtain ⟨make, made, _⟩ := reads front behind
  rw [made, made, same]

theorem eq_none (reads : ReadsPart read name slot part) (lost : slot (some value) = none)
    : read (.object (front ++ (some name, value) :: behind)) = none := by
  obtain ⟨make, made, _⟩ := reads front behind
  rw [made, lost]
  cases make <;> rfl

/-- A part that has a default is the default when its field is left out. -/
theorem leavesOut (reads : ReadsPart read name slot part) {default : β}
    (absent : slot none = some default) : LeavesOut read itself name (part.put default) := by
  intro front value behind v found
  obtain ⟨make, made, isMade⟩ := reads front behind
  rw [itself, made] at found
  obtain ⟨f, isMake, found⟩ := Option.bind_eq_some_iff.mp found
  obtain ⟨b, _, rfl⟩ := Option.map_eq_some_iff.mp found
  obtain ⟨without, put⟩ := isMade f isMake
  rw [itself, without, absent, (put b).2 default]
  rfl

/-- A field left out inside a part is its default there. -/
theorem leavesOut_inside (reads : ReadsPart read name slot part)
    (present : ∀ value, slot (some value) = inner value) {place : Json → Json} {reset : β → β}
    (leavesOut : LeavesOut inner place key reset) (front behind : List (Option String × Json))
    : LeavesOut read (inField front name behind ∘ place) key
        fun v => part.put (reset (part.get v)) v := by
  intro ahead value after v found
  obtain ⟨make, made, isMade⟩ := reads front behind
  change read (.object (front ++ (some name, place _) :: behind)) = _ at found
  rw [made, present] at found
  obtain ⟨f, isMake, found⟩ := Option.bind_eq_some_iff.mp found
  obtain ⟨b, inside, rfl⟩ := Option.map_eq_some_iff.mp found
  have put := (isMade f isMake).2 b
  change read (.object (front ++ (some name, place _) :: behind))
    = some (part.put (reset (part.get (f b))) (f b))
  rw [made, present, leavesOut ahead value after b inside, isMake, put.1, put.2]
  rfl

end ReadsPart

-----------------------------------------------------------------------------------------
-- Readers by their forms
-----------------------------------------------------------------------------------------

/-- A known field is looked at as a whole, or is a part read by a tolerant reader. -/
def TakesField (admits : Json → Prop) (read : Json → Option α) (name : String) (form : Form)
    : Prop :=
  form = .whole ∨ ∃ (β : Type) (inner : Json → Option β) (slot : Option Json → Option β)
    (part : Part α β), ReadsPart read name slot part ∧ (∀ value, slot (some value) = inner value)
      ∧ Tolerates admits form inner

/-- A reader of the slots of known names, each of which it takes as its form says, is tolerant. -/
theorem tolerates_record {known : List (String × Form)}
    (reads : ∀ json, read json = (slots (known.map (·.1)) json).bind build)
    (each : ∀ name form, (name, form) ∈ known → TakesField admits read name form)
    : Tolerates admits (.record known) read where
  keeps := by
    intro json other edit
    cases edit with
    | order perm => rw [reads, reads, slots_perm perm]
    | unknown fresh => rw [reads, reads, slots_insert_of_fresh fresh]
    | @field _ front behind name form old new isKnown inside =>
        rcases each name form isKnown with rfl | ⟨_, inner, slot, part, isPart, present, tolerates⟩
        · cases inside
        · refine isPart.congr ?_
          rw [present, present, tolerates.keeps old new inside]
  refuses := by
    intro json repeats
    cases repeats with
    | twice isKnown =>
        rw [reads, slots_twice isKnown]
        rfl
    | @field _ front behind name form value isKnown inside =>
        rcases each name form isKnown with rfl | ⟨_, inner, slot, part, isPart, present, tolerates⟩
        · cases inside
        · refine isPart.eq_none ?_
          rw [present, tolerates.refuses value inside]

theorem tolerates_list (tolerates : Tolerates admits form inner)
    : Tolerates admits (.list form) (list inner) where
  keeps := by
    intro json other edit
    cases edit with
    | @item _ front behind old new inside =>
        change (front ++ new :: behind).mapM inner = (front ++ old :: behind).mapM inner
        rw [List.mapM_append, List.mapM_append, List.mapM_cons, List.mapM_cons,
          tolerates.keeps old new inside]
  refuses := by
    intro json repeats
    cases repeats with
    | @item _ front behind value inside =>
        exact mapM_eq_none_of_mem (by simp) (tolerates.refuses value inside)

/-- The item behind the first ones is changed where it is, by induction on the first ones. -/
theorem modify_append (first last : List β) (b : β) (f : β → β)
    : (first ++ b :: last).modify first.length f = first ++ f b :: last := by
  induction first with
  | nil => rfl
  | cons a first ih => exact congrArg (a :: ·) ih

/-- A field left out inside an item is its default in that item. -/
theorem leavesOut_item {place : Json → Json} {reset : β → β}
    (leavesOut : LeavesOut inner place key reset) (front behind : List Json)
    : LeavesOut (list inner) (inItem front behind ∘ place) key
        fun vs => vs.modify front.length reset := by
  intro ahead value after vs found
  change (front ++ _ :: behind).mapM inner = some vs at found
  change (front ++ _ :: behind).mapM inner = some _
  simp only [List.mapM_append, List.mapM_cons, Option.bind_eq_bind, Option.pure_def,
    Option.bind_eq_some_iff, Option.some.injEq] at found
  obtain ⟨first, ahead', _, ⟨b, inside, last, left, rfl⟩, rfl⟩ := found
  rw [List.mapM_append, List.mapM_cons, ahead', leavesOut ahead value after b inside, left,
    ← length_of_mapM ahead']
  exact congrArg some (modify_append first last b reset).symm

theorem map_plain (names : List String) : (Form.plain names).map (·.1) = names := by
  unfold Form.plain
  rw [List.map_map]
  exact List.map_id names

theorem eq_whole_of_mem_plain {names : List String} (member : (name, form) ∈ Form.plain names)
    : form = .whole := by
  obtain ⟨_, _, same⟩ := List.mem_map.mp member
  cases same
  rfl

end DocPipeline.Json
