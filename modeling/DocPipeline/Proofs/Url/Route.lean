import DocPipeline.Proofs.Url.Percent
import DocPipeline.Service.Client

/-! Routes from names. A name becomes a segment of its own exactly when it is not made of points
that lead elsewhere and holds nothing that an address drops. With such names only, an address tells
them all.
-/

namespace DocPipeline.Url

-----------------------------------------------------------------------------------------
-- Segments that lead elsewhere
-----------------------------------------------------------------------------------------

/-- A letter made small is the letter itself or was a capital one. -/
theorem toLower_eq_or (c : Char)
    : c.toLower = c ∨ (c.toNat ≤ 90 ∧ c.toLower.toNat = c.toNat + 32 ∧ 65 ≤ c.toNat) := by
  unfold Char.toLower
  split
  next capital =>
    obtain ⟨above, below⟩ := capital
    have lowest : 65 ≤ c.toNat := above
    have highest : c.toNat ≤ 90 := below
    refine .inr ⟨highest, ?_, lowest⟩
    change (c.val + (97 - 65)).toNat = c.val.toNat + 32
    rw [UInt32.toNat_add]
    simp
    omega
  next => exact .inl rfl

/-- Only a point becomes a point, only a percent sign a percent sign, and only a digit a digit, when
letters are made small.
-/
theorem eq_of_toLower_eq {c d : Char} (small : c.toLower = d) (early : d.toNat < 97) : c = d := by
  rcases toLower_eq_or c with same | ⟨_, shifted, lowest⟩
  · exact same.symm.trans small
  · rw [small] at shifted
    omega

/-- Two letters become a small e. -/
theorem eq_of_toLower_eq_e {c : Char} (small : c.toLower = 'e') : c = 'e' ∨ c = 'E' := by
  rcases toLower_eq_or c with same | ⟨_, shifted, _⟩
  · exact .inl (same.symm.trans small)
  · rw [small] at shifted
    have number : c.toNat = 69 := by
      change 101 = c.toNat + 32 at shifted
      omega
    exact .inr (Char.toNat_inj.mp number)

/-- The two ways to write a point, in small letters. -/
def points : List (List Char) :=
  [['.'], ['%', '2', 'e']]

/-- A text that begins with a point, once its letters are small, is decoded to one. -/
theorem decode_of_point {point segment rest : List Char} (member : point ∈ points)
    (small : segment.map Char.toLower = point ++ rest)
    : ∃ tail, tail.map Char.toLower = rest ∧ decode segment = 0x2E :: decode tail := by
  simp only [points, List.mem_cons, List.not_mem_nil, or_false] at member
  rcases member with rfl | rfl
  · obtain ⟨a, tail, rfl, first, behind⟩ := List.map_eq_cons_iff.mp small
    refine ⟨tail, behind, ?_⟩
    rw [eq_of_toLower_eq first (by decide)]
    exact decode_cons_of_ne tail (by decide)
  · obtain ⟨a, _, rfl, first, more⟩ := List.map_eq_cons_iff.mp small
    obtain ⟨b, _, rfl, second, more⟩ := List.map_eq_cons_iff.mp more
    obtain ⟨c, tail, rfl, third, behind⟩ := List.map_eq_cons_iff.mp more
    refine ⟨tail, behind, ?_⟩
    rw [eq_of_toLower_eq first (by decide), eq_of_toLower_eq second (by decide)]
    rcases eq_of_toLower_eq_e third with rfl | rfl <;> rfl

/-- A segment that means its directory stands for one point. -/
theorem decode_of_isHere {segment : List Char} (here : isHere segment = true)
    : decode segment = [0x2E] := by
  have known : ∃ point ∈ points, segment.map Char.toLower = point ++ [] := by
    simp only [isHere, List.contains_cons, List.contains_nil, Bool.or_false, Bool.or_eq_true,
      beq_iff_eq] at here
    rcases here with same | same
    · exact ⟨['.'], by simp [points], String.ofList_injective same⟩
    · exact ⟨['%', '2', 'e'], by simp [points], String.ofList_injective same⟩
  obtain ⟨point, member, small⟩ := known
  obtain ⟨tail, behind, decoded⟩ := decode_of_point member small
  rw [decoded, List.map_eq_nil_iff.mp behind]
  rfl

/-- A segment that means the directory above stands for two points. -/
theorem decode_of_isAbove {segment : List Char} (up : isAbove segment = true)
    : decode segment = [0x2E, 0x2E] := by
  have known : ∃ first ∈ points, ∃ second ∈ points,
      segment.map Char.toLower = first ++ (second ++ []) := by
    simp only [isAbove, List.contains_cons, List.contains_nil, Bool.or_false, Bool.or_eq_true,
      beq_iff_eq] at up
    rcases up with same | same | same | same
    · exact ⟨['.'], by simp [points], ['.'], by simp [points], String.ofList_injective same⟩
    · exact ⟨['%', '2', 'e'], by simp [points], ['.'], by simp [points],
        String.ofList_injective same⟩
    · exact ⟨['.'], by simp [points], ['%', '2', 'e'], by simp [points],
        String.ofList_injective same⟩
    · exact ⟨['%', '2', 'e'], by simp [points], ['%', '2', 'e'], by simp [points],
        String.ofList_injective same⟩
  obtain ⟨first, begins, second, ends, small⟩ := known
  obtain ⟨middle, between, decoded⟩ := decode_of_point begins small
  obtain ⟨tail, behind, more⟩ := decode_of_point ends between
  rw [decoded, more, List.map_eq_nil_iff.mp behind]
  rfl

-----------------------------------------------------------------------------------------
-- The segment of a name
-----------------------------------------------------------------------------------------

/-- A name that an address keeps as it is: not one or two points, and without tabs or line ends. -/
structure IsSegmentName (name : String) : Prop where
  notHere : name ≠ "."
  notAbove : name ≠ ".."
  nothingIgnored : ∀ c ∈ name.toList, isIgnored c = false

/-- The segment of a name in the address of a server. -/
def segmentOf (name : String) : List Char :=
  encode inWebSegment name.toList

/-- The percent sign is reserved in segments. -/
theorem percent_reserved : inWebSegment '%' = true := by
  simp [inWebSegment, inSegment]

/-- The slash is reserved in segments. -/
theorem slash_reserved : inWebSegment '/' = true := by
  simp [inWebSegment, inSegment]

/-- The segment of a name stands for the name. -/
theorem decode_segmentOf (name : String) : decode (segmentOf name) = Text.Utf8.encode name :=
  decode_encode percent_reserved name.toList

/-- Names with the same segment are the same, since it stands for both. -/
theorem segmentOf_inj {name other : String} (same : segmentOf name = segmentOf other)
    : name = other := by
  have bytes : Text.Utf8.encode name = Text.Utf8.encode other := by
    rw [← decode_segmentOf, ← decode_segmentOf, same]
  exact String.toList_inj.mp (Text.Utf8.flatMap_utf8EncodeChar_inj bytes)

/-- No segment of a name holds a slash. -/
theorem slash_not_mem_segmentOf (name : String) : '/' ∉ segmentOf name :=
  not_mem_encode slash_reserved (by decide) name.toList

/-- Only a text of one point has an encoding that means its directory. -/
theorem eq_of_isHere_encode {cs : List Char} (here : isHere (encode inWebSegment cs) = true)
    : cs = ['.'] := by
  apply Text.Utf8.flatMap_utf8EncodeChar_inj
  rw [← decode_encode percent_reserved cs, decode_of_isHere here]
  rfl

/-- Only a text of two points has an encoding that means the directory above. -/
theorem eq_of_isAbove_encode {cs : List Char} (up : isAbove (encode inWebSegment cs) = true)
    : cs = ['.', '.'] := by
  apply Text.Utf8.flatMap_utf8EncodeChar_inj
  rw [← decode_encode percent_reserved cs, decode_of_isAbove up]
  rfl

-----------------------------------------------------------------------------------------
-- A name behind other segments
-----------------------------------------------------------------------------------------

/-- What a segment at the end does on a server, which knows no drives. -/
theorem addSegment_server (segments : List (List Char)) (segment : List Char)
    : addSegment .server true segments segment
      = if isAbove segment = true then segments.dropLast ++ [[]]
        else if isHere segment = true then segments ++ [[]] else segments ++ [segment] := by
  have shorter : above .server segments = segments.dropLast := by
    unfold above
    split <;> rfl
  unfold addSegment
  rw [shorter]
  rfl

/-- What a name does on a server, unless it consists of points. -/
theorem addName_server {name : List Char} (segments : List (List Char))
    (notHere : name ≠ ['.']) (notAbove : name ≠ ['.', '.'])
    : addName .server segments name
      = addSegment .server true (if segments = [[]] then [] else segments)
          (encode inWebSegment (name.filter (!isIgnored ·))) := by
  unfold addName
  rw [if_neg (by simp [notHere, notAbove])]
  rfl

/-- A name that an address keeps is behind the other segments, as its own segment. -/
theorem addName_of_plain (segments : List (List Char)) {name : String}
    (plain : IsSegmentName name)
    : addName .server segments name.toList
      = (if segments = [[]] then [] else segments) ++ [segmentOf name] := by
  have kept : name.toList.filter (!isIgnored ·) = name.toList := by
    rw [List.filter_eq_self]
    intro c member
    rw [plain.nothingIgnored c member, Bool.not_false]
  have notHere : name.toList ≠ ['.'] := fun same => plain.notHere (String.toList_inj.mp same)
  have notAbove : name.toList ≠ ['.', '.'] := fun same =>
    plain.notAbove (String.toList_inj.mp same)
  rw [addName_server segments notHere notAbove, kept, addSegment_server,
    if_neg fun up => notAbove (eq_of_isAbove_encode up),
    if_neg fun here => notHere (eq_of_isHere_encode here)]
  rfl

/-- What a name does to the segments before it: it adds at most one, and one that stands for the
name only if the name is one that an address keeps.
-/
structure Grows (segments longer : List (List Char)) (name : String) : Prop where
  atMostOne : longer.length ≤ segments.length + 1
  honest : longer.length = segments.length + 1 →
    ∃ segment, longer = segments ++ [segment]
      ∧ (decode segment = Text.Utf8.encode name → IsSegmentName name)

/-- Segments that did not grow have nothing to say about the name. -/
theorem Grows.of_le {segments longer : List (List Char)} {name : String}
    (short : longer.length ≤ segments.length) : Grows segments longer name where
  atMostOne := Nat.le_succ_of_le short
  honest grown := by omega

/-- Any other name adds a segment that stands for what is left of it, or one of points, which the
name was not; by cases on what the segment means.
-/
theorem addSegment_grows (segments : List (List Char)) {name : String}
    (notHere : name ≠ ".") (notAbove : name ≠ "..")
    : Grows segments
        (addSegment .server true segments
          (encode inWebSegment (name.toList.filter (!isIgnored ·)))) name := by
  have whole {segment : List Char} {cs : List Char}
      (bytes : decode segment = cs.flatMap String.utf8EncodeChar)
      (same : decode segment = Text.Utf8.encode name) : cs = name.toList :=
    Text.Utf8.flatMap_utf8EncodeChar_inj (bytes.symm.trans same)
  generalize left : name.toList.filter (!isIgnored ·) = cs
  rw [addSegment_server]
  by_cases up : isAbove (encode inWebSegment cs) = true
  · rw [if_pos up]
    rcases List.eq_nil_or_concat segments with rfl | ⟨front, last, rfl⟩
    · refine ⟨by simp, fun _ => ⟨[], rfl, fun same => ?_⟩⟩
      have two := eq_of_isAbove_encode up
      have none : [] = name.toList := whole rfl same
      rw [← none, two] at left
      cases left
    · exact .of_le (by simp)
  · rw [if_neg up]
    by_cases here : isHere (encode inWebSegment cs) = true
    · rw [if_pos here]
      refine ⟨by simp, fun _ => ⟨[], rfl, fun same => ?_⟩⟩
      have one := eq_of_isHere_encode here
      have none : [] = name.toList := whole rfl same
      rw [← none, one] at left
      cases left
    · rw [if_neg here]
      refine ⟨by simp, fun _ => ⟨_, rfl, fun same => ⟨notHere, notAbove, ?_⟩⟩⟩
      have all : cs = name.toList := whole (decode_encode percent_reserved cs) same
      rw [all, List.filter_eq_self] at left
      intro c member
      simpa using left c member

/-- A name adds at most one segment, and an honest one only if it is kept: skipped names and
segments that give way to the first one add none.
-/
theorem addName_grows (segments : List (List Char)) (name : String)
    : Grows segments (addName .server segments name.toList) name := by
  by_cases notHere : name = "."
  · subst notHere
    exact .of_le (by simp [addName])
  by_cases notAbove : name = ".."
  · subst notAbove
    exact .of_le (by simp [addName])
  rw [addName_server segments (fun same => notHere (String.toList_inj.mp same))
    fun same => notAbove (String.toList_inj.mp same)]
  by_cases only : segments = [[]]
  · rw [if_pos only, only]
    exact .of_le (addSegment_grows [] notHere notAbove).atMostOne
  · rw [if_neg only]
    exact addSegment_grows segments notHere notAbove

-----------------------------------------------------------------------------------------
-- Names one after the other
-----------------------------------------------------------------------------------------

/-- The segments with one for each name. -/
def withNames (segments : List (List Char)) (names : List String) : List (List Char) :=
  (names.map String.toList).foldl (addName .server) segments

/-- Names that an address keeps are behind the other segments, in their order; by induction on the
names.
-/
theorem withNames_of_plain {segments : List (List Char)} {names : List String}
    (plain : ∀ name ∈ names, IsSegmentName name) (started : segments ≠ [])
    (filled : segments ≠ [[]])
    : withNames segments names = segments ++ names.map segmentOf := by
  induction names generalizing segments with
  | nil => exact (List.append_nil segments).symm
  | cons name names ih =>
      have longer : segments ++ [segmentOf name] ≠ [[]] := by
        intro same
        have lengths := congrArg List.length same
        rw [List.length_append, List.length_singleton, List.length_singleton] at lengths
        exact started (List.eq_nil_of_length_eq_zero (by omega))
      have step := addName_of_plain segments (plain name List.mem_cons_self)
      have rest := ih (fun other member => plain other (List.mem_cons_of_mem _ member))
        (List.append_ne_nil_of_left_ne_nil started _) longer
      change withNames (addName .server segments name.toList) names = _
      rw [step, if_neg filled, rest, List.append_assoc]
      rfl

/-- Names add at most as many segments as there are names; and if each name got one that stands for
it, the names are ones that an address keeps. By induction on the names, the first of which has to
grow the segments for the others to make up the number.
-/
theorem withNames_grows (segments : List (List Char)) (names : List String)
    : (withNames segments names).length ≤ segments.length + names.length
      ∧ ((withNames segments names).length = segments.length + names.length →
        ∃ route, withNames segments names = segments ++ route
          ∧ (route.map decode = names.map Text.Utf8.encode →
            ∀ name ∈ names, IsSegmentName name)) := by
  induction names generalizing segments with
  | nil => exact ⟨Nat.le_refl _, fun _ => ⟨[], (List.append_nil segments).symm, by simp⟩⟩
  | cons name names ih =>
      have first := addName_grows segments name
      obtain ⟨rest, honest⟩ := ih (addName .server segments name.toList)
      have most := first.atMostOne
      change (withNames (addName .server segments name.toList) names).length ≤ _ ∧
        ((withNames (addName .server segments name.toList) names).length = _ → _)
      rw [List.length_cons]
      refine ⟨by omega, fun grown => ?_⟩
      obtain ⟨segment, added, kept⟩ := first.honest (by omega)
      obtain ⟨route, behind, others⟩ := honest (by omega)
      refine ⟨segment :: route, ?_, fun same => ?_⟩
      · change withNames (addName .server segments name.toList) names = _
        rw [behind, added, List.append_assoc]
        rfl
      · rw [List.map_cons, List.map_cons, List.cons.injEq] at same
        exact List.forall_mem_cons.mpr ⟨kept same.1, others same.2⟩

-----------------------------------------------------------------------------------------
-- Names behind a base
-----------------------------------------------------------------------------------------

/-- The segments of a base that others can follow: all but an empty one at the end. -/
def ground (segments : List (List Char)) : List (List Char) :=
  if segments.getLast? = some [] then segments.dropLast else segments

/-- The first name gets behind the ground of a base, except that it also takes the place of the
first of two empty segments.
-/
theorem addName_withoutEmptyEnd (segments : List (List Char)) {name : String}
    (plain : IsSegmentName name)
    : addName .server (withoutEmptyEnd segments) name.toList
      = (if segments = [[], []] then [] else ground segments) ++ [segmentOf name] := by
  rw [addName_of_plain _ plain]
  congr 1
  match segments with
  | [] => rfl
  | [_] => simp [withoutEmptyEnd, ground]
  | first :: second :: rest =>
      have same : withoutEmptyEnd (first :: second :: rest) = ground (first :: second :: rest) := by
        simp [withoutEmptyEnd, ground]
      have only : ground (first :: second :: rest) = [[]] ↔ first :: second :: rest = [[], []] := by
        unfold ground
        cases rest with
        | nil => by_cases empty : second = [] <;> simp [empty]
        | cons third rest => split <;> simp
      rw [same]
      simp only [only]

/-- A path of segments on a server with names behind it. -/
theorem extend_of_server {url : Url} (server : url.kind = .server) (names : List String)
    : url.extend names
      = { url with path := .segments (withNames (withoutEmptyEnd url.segments) names) } := by
  unfold extend
  rw [server]
  rfl

-----------------------------------------------------------------------------------------
-- Written paths
-----------------------------------------------------------------------------------------

/-- Texts without a slash are told apart from what follows with one; by induction on both. -/
theorem eq_of_append_eq {front others behind beyond : List Char} (plain : '/' ∉ front)
    (plainOthers : '/' ∉ others) (slash : ∀ c ∈ behind.head?, c = '/')
    (slashToo : ∀ c ∈ beyond.head?, c = '/') (same : front ++ behind = others ++ beyond)
    : front = others ∧ behind = beyond := by
  induction front generalizing others with
  | nil =>
      cases others with
      | nil => exact ⟨rfl, same⟩
      | cons c others =>
          rw [List.nil_append] at same
          rw [same] at slash
          exact absurd (slash c rfl ▸ List.mem_cons_self) plainOthers
  | cons c front ih =>
      cases others with
      | nil =>
          rw [List.nil_append] at same
          rw [← same] at slashToo
          exact absurd (slashToo c rfl ▸ List.mem_cons_self) plain
      | cons d others =>
          rw [List.cons_append, List.cons_append, List.cons.injEq] at same
          have rest := ih (fun member => plain (List.mem_cons_of_mem c member))
            (fun member => plainOthers (List.mem_cons_of_mem d member)) same.2
          exact ⟨by rw [same.1, rest.1], rest.2⟩

/-- A written path begins with a slash, if with anything. -/
theorem head_of_path {segments : List (List Char)} {c : Char}
    (first : c ∈ (Path.segments segments).text.head?) : c = '/' := by
  cases segments with
  | nil => cases first
  | cons segment segments => exact (Option.some.inj first).symm

/-- Paths of segments without slashes are written in different ways; by induction on both. -/
theorem path_text_inj {route other : List (List Char)} (plain : ∀ segment ∈ route, '/' ∉ segment)
    (plainToo : ∀ segment ∈ other, '/' ∉ segment)
    (same : (Path.segments route).text = (Path.segments other).text) : route = other := by
  induction route generalizing other with
  | nil =>
      cases other with
      | nil => rfl
      | cons segment other => cases same
  | cons segment route ih =>
      cases other with
      | nil => cases same
      | cons second other =>
          obtain ⟨here, behind⟩ := eq_of_append_eq (plain _ List.mem_cons_self)
            (plainToo _ List.mem_cons_self) (fun _ => head_of_path) (fun _ => head_of_path)
            (List.cons.inj same).2
          have rest := ih (fun _ member => plain _ (List.mem_cons_of_mem _ member))
            (fun _ member => plainToo _ (List.mem_cons_of_mem _ member)) behind
          rw [here, rest]

/-- Addresses that differ in their paths only are written alike only if their paths are. -/
theorem path_text_of_text {url : Url} {path other : Path} (hosted : url.host.isSome = true)
    (same : ({ url with path := path } : Url).text = ({ url with path := other } : Url).text)
    : path.text = other.text := by
  have noGuard (p : Path) : ({ url with path := p } : Url).pathGuard = [] := by
    obtain ⟨host, some⟩ := Option.isSome_iff_exists.mp hosted
    unfold pathGuard
    rw [some]
  have texts := String.ofList_injective same
  unfold textWithoutFragment at texts
  rw [noGuard, noGuard] at texts
  exact List.append_cancel_left (List.append_cancel_right (List.append_cancel_right texts))

end DocPipeline.Url
