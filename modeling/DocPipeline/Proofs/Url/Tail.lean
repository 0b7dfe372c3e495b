import DocPipeline.Proofs.Except
import DocPipeline.Url.Route

/-! The tail of an address, which is its query and its fragment. Everything else is read from what
stands before them, so two texts that agree there spell addresses that differ in their tails only.
-/

namespace DocPipeline.Url

/-- The text before the first mark of a query or a fragment. -/
def beforeTail (cs : List Char) : List Char :=
  cs.takeWhile fun c => !endsPath c

/-- The address without its query and its fragment. -/
def withoutTail (url : Url) : Url :=
  { url with query := none, fragment := none }

@[simp]
theorem path_withoutTail (url : Url) : url.withoutTail.path = url.path :=
  rfl

-----------------------------------------------------------------------------------------
-- Texts before their tails
-----------------------------------------------------------------------------------------

section Texts

variable {p : Char → Bool} (stops : ∀ c, endsPath c = true → p c = false)

include stops

theorem takeWhile_beforeTail (cs : List Char) : (beforeTail cs).takeWhile p = cs.takeWhile p := by
  induction cs with
  | nil => rfl
  | cons c rest ih =>
      unfold beforeTail at ih ⊢
      cases ends : endsPath c with
      | true => simp [ends, stops c ends]
      | false => simp [ends, List.takeWhile_cons, ih]

theorem dropWhile_beforeTail (cs : List Char)
    : (beforeTail cs).dropWhile p = beforeTail (cs.dropWhile p) := by
  induction cs with
  | nil => rfl
  | cons c rest ih =>
      unfold beforeTail at ih ⊢
      cases ends : endsPath c with
      | true => simp [ends, stops c ends]
      | false =>
          cases passed : p c with
          | true => simp [ends, passed, ih]
          | false => simp [ends, passed]

end Texts

@[simp]
theorem beforeTail_beforeTail (cs : List Char) : beforeTail (beforeTail cs) = beforeTail cs :=
  takeWhile_beforeTail (fun _ ends => by simp [ends]) cs

theorem beforeTail_cons {c : Char} (inside : endsPath c = false) (rest : List Char)
    : beforeTail (c :: rest) = c :: beforeTail rest := by
  simp [beforeTail, inside]

theorem head?_beforeTail {c : Char} (inside : endsPath c = false) (cs : List Char)
    : (beforeTail cs).head? = some c ↔ cs.head? = some c := by
  cases cs with
  | nil => rfl
  | cons d rest =>
      unfold beforeTail
      cases ends : endsPath d with
      | true =>
          have other : d ≠ c := by
            rintro rfl
            simp [inside] at ends
          simp [ends, other]
      | false => simp [ends]

/-- Nothing of a tail is before it. -/
theorem beforeTail_append {front tail : List Char} (inside : ∀ c ∈ front, endsPath c = false)
    (marked : ∀ c ∈ tail.head?, endsPath c = true) : beforeTail (front ++ tail) = front := by
  induction front with
  | nil =>
      cases tail with
      | nil => rfl
      | cons mark rest => simp [beforeTail, marked mark rfl]
  | cons c front ih =>
      rw [List.forall_mem_cons] at inside
      rw [List.cons_append, beforeTail_cons inside.1, ih inside.2]

theorem endsAuthority_of_endsPath {c : Char} (kind : Kind) (ends : endsPath c = true)
    : endsAuthority kind c = true := by
  rw [endsPath] at ends
  rw [endsAuthority, Bool.or_assoc, ends, Bool.or_true]

theorem isSlash_of_endsPath {c : Char} (kind : Kind) (ends : endsPath c = true)
    : isSlash kind c = false := by
  simp only [endsPath, Bool.or_eq_true, beq_iff_eq] at ends
  rcases ends with rfl | rfl <;> simp [isSlash]

-----------------------------------------------------------------------------------------
-- Addresses before their tails
-----------------------------------------------------------------------------------------

/-- An authority and the path behind it are before the tail. -/
theorem withAuthority_beforeTail (scheme cs : List Char)
    : (withAuthority scheme (beforeTail cs)).map withoutTail
      = (withAuthority scheme cs).map withoutTail := by
  have stops : ∀ c, endsPath c = true → (!endsAuthority (kindOf scheme) c) = false := by
    intro c ends
    rw [endsAuthority_of_endsPath _ ends, Bool.not_true]
  have path := beforeTail_beforeTail (cs.dropWhile fun c => !endsAuthority (kindOf scheme) c)
  unfold withAuthority
  dsimp only
  rw [takeWhile_beforeTail stops, dropWhile_beforeTail stops]
  cases authority scheme (cs.takeWhile fun c => !endsAuthority (kindOf scheme) c) with
  | error fault => rfl
  | ok parts =>
      simp only [beforeTail] at path
      simp only [beforeTail, Except.ok_bind, Except.map, withoutTail, pure, Except.pure, path]

/-- So are the host and the path of a file, by cases on what stands there. -/
theorem file_beforeTail (cs : List Char)
    : (file (beforeTail cs)).map withoutTail = (file cs).map withoutTail := by
  have before := beforeTail_beforeTail cs
  unfold beforeTail at before ⊢
  unfold file
  dsimp only
  rw [before]
  match cs.takeWhile fun c => !endsPath c with
  | [] | [_] => rfl
  | c :: d :: rest =>
      by_cases slashes : (isSlash .file c && isSlash .file d) = true
      · simp only [slashes, if_true]
        cases fileParts rest <;> rfl
      · simp only [slashes]
        rfl

section Others

variable {scheme : List Char} (other : kindOf scheme = .other)

include other

theorem afterScheme_two_slashes (rest : List Char)
    : afterScheme scheme ('/' :: '/' :: rest) = withAuthority scheme rest := by
  simp only [afterScheme, other]

theorem afterScheme_one_slash {rest : List Char} (single : rest.head? ≠ some '/')
    : afterScheme scheme ('/' :: rest)
      = .ok (withoutAuthority scheme none (pathAfter .other [] (beforeTail ('/' :: rest)).tail)
          (('/' :: rest).dropWhile fun c => !endsPath c)) := by
  simp only [afterScheme, other]
  split
  · next same =>
      obtain ⟨_, rfl⟩ := List.cons.inj same
      exact absurd rfl single
  · rfl
  · next none =>
      exact absurd rfl (none rest)

theorem afterScheme_no_slash {cs : List Char} (none : cs.head? ≠ some '/')
    : afterScheme scheme cs
      = .ok (withoutAuthority scheme .none (.opaquePath (encode isControl (beforeTail cs)))
          (cs.dropWhile fun c => !endsPath c)) := by
  simp only [afterScheme, other]
  split
  · exact absurd rfl none
  · exact absurd rfl none
  · rfl

/-- The path of an address of another kind is before its tail, whether it has an authority, segments
or neither.
-/
theorem other_beforeTail (cs : List Char)
    : (afterScheme scheme (beforeTail cs)).map withoutTail
      = (afterScheme scheme cs).map withoutTail := by
  have slash : endsPath '/' = false := by decide
  by_cases some : cs.head? = some '/'
  · obtain ⟨rest, rfl⟩ := List.head?_eq_some_iff.mp some
    rw [beforeTail_cons slash]
    by_cases two : rest.head? = .some '/'
    · obtain ⟨rest, rfl⟩ := List.head?_eq_some_iff.mp two
      rw [beforeTail_cons slash, afterScheme_two_slashes other, afterScheme_two_slashes other]
      exact withAuthority_beforeTail scheme rest
    · have one := mt (head?_beforeTail slash rest).mp two
      rw [afterScheme_one_slash other one, afterScheme_one_slash other two, beforeTail_cons slash,
        beforeTail_cons slash, beforeTail_beforeTail]
      rfl
  · have none := mt (head?_beforeTail slash cs).mp some
    rw [afterScheme_no_slash other none, afterScheme_no_slash other some, beforeTail_beforeTail]
    rfl

end Others

theorem afterScheme_beforeTail (scheme cs : List Char)
    : (afterScheme scheme (beforeTail cs)).map withoutTail
      = (afterScheme scheme cs).map withoutTail := by
  cases kind : kindOf scheme with
  | server =>
      simp only [afterScheme, kind]
      rw [dropWhile_beforeTail fun _ => isSlash_of_endsPath .server]
      exact withAuthority_beforeTail _ _
  | file =>
      simp only [afterScheme, kind]
      exact file_beforeTail cs
  | other => exact other_beforeTail kind cs

theorem splitScheme_of_colon {cs rest : List Char}
    (colon : cs.dropWhile isSchemeChar = ':' :: rest)
    : splitScheme cs
      = if (cs.takeWhile isSchemeChar).head?.any Char.isAlpha then
          some ((cs.takeWhile isSchemeChar).map Char.toLower, rest)
        else none := by
  unfold splitScheme
  dsimp only
  rw [colon]
  cases (cs.takeWhile isSchemeChar).head?.any Char.isAlpha <;> rfl

theorem splitScheme_eq_none {cs : List Char}
    (other : (cs.dropWhile isSchemeChar).head? ≠ some ':') : splitScheme cs = none := by
  unfold splitScheme
  dsimp only
  split
  · next colon =>
      rw [colon] at other
      exact absurd rfl other
  · rfl

/-- The scheme is before the tail, which begins no earlier than what stands behind the colon. -/
theorem splitScheme_beforeTail (cs : List Char)
    : splitScheme (beforeTail cs) = (splitScheme cs).map fun (scheme, rest) =>
        (scheme, beforeTail rest) := by
  have stops : ∀ c, endsPath c = true → isSchemeChar c = false := by
    intro c ends
    simp only [endsPath, Bool.or_eq_true, beq_iff_eq] at ends
    rcases ends with rfl | rfl <;> decide
  have inside : endsPath ':' = false := by decide
  have behind := dropWhile_beforeTail stops cs
  by_cases colon : (cs.dropWhile isSchemeChar).head? = some ':'
  · obtain ⟨rest, same⟩ := List.head?_eq_some_iff.mp colon
    rw [same, beforeTail_cons inside] at behind
    rw [splitScheme_of_colon same, splitScheme_of_colon behind, takeWhile_beforeTail stops]
    split <;> rfl
  · have none := mt (head?_beforeTail inside _).mp colon
    rw [← behind] at none
    rw [splitScheme_eq_none colon, splitScheme_eq_none none]
    rfl

/-- Everything but the tail of an address is read from what stands before it. -/
theorem parse_eq_of_beforeTail {s t : String}
    (same : beforeTail (cleaned s) = beforeTail (cleaned t))
    : (parse s).map withoutTail = (parse t).map withoutTail := by
  have schemes := congrArg splitScheme same
  rw [splitScheme_beforeTail, splitScheme_beforeTail] at schemes
  unfold parse
  cases first : splitScheme (cleaned s) with
  | none =>
      cases second : splitScheme (cleaned t) with
      | none => rfl
      | some parts => simp [first, second] at schemes
  | some parts =>
      cases second : splitScheme (cleaned t) with
      | none => simp [first, second] at schemes
      | some others =>
          rw [first, second, Option.map_some, Option.map_some, Option.some.injEq] at schemes
          obtain ⟨scheme, behind⟩ := Prod.mk.inj schemes
          calc (afterScheme parts.1 parts.2).map withoutTail
            _ = (afterScheme parts.1 (beforeTail parts.2)).map withoutTail :=
              (afterScheme_beforeTail _ _).symm
            _ = (afterScheme others.1 (beforeTail others.2)).map withoutTail := by
              rw [scheme, behind]
            _ = (afterScheme others.1 others.2).map withoutTail := afterScheme_beforeTail _ _

-----------------------------------------------------------------------------------------
-- Texts with a tail
-----------------------------------------------------------------------------------------

theorem dropWhile_to_solid {p : Char → Bool} {c : Char} (solid : p c = false)
    (front rest : List Char)
    : (front ++ c :: rest).dropWhile p = front.dropWhile p ++ c :: rest := by
  rw [List.dropWhile_append]
  split
  · next none => simp [solid, List.isEmpty_iff.mp none]
  · rfl

/-- The padding around a text ends at a character that is none. -/
theorem cleaned_of_solid {s : String} {front rest : List Char} {c : Char}
    (spelled : s.toList = front ++ c :: rest) (solid : isPadding c = false)
    : cleaned s
      = (front.dropWhile isPadding ++ c :: (rest.reverse.dropWhile isPadding).reverse).filter
          (!isIgnored ·) := by
  have reversed : (front.dropWhile isPadding ++ c :: rest).reverse
      = rest.reverse ++ c :: (front.dropWhile isPadding).reverse := by simp
  unfold cleaned
  dsimp only
  rw [spelled, dropWhile_to_solid solid, reversed, dropWhile_to_solid solid]
  simp

/-- The padding behind a tail does not reach its mark. -/
theorem head?_trimmed {tail : List Char} (marked : ∀ c ∈ tail.head?, endsPath c = true)
    : ∀ c ∈ ((tail.reverse.dropWhile isPadding).reverse.filter (!isIgnored ·)).head?,
        endsPath c = true := by
  cases tail with
  | nil => exact nofun
  | cons mark rest =>
      have ends := marked mark rfl
      have own : isPadding mark = false ∧ isIgnored mark = false := by
        simp only [endsPath, Bool.or_eq_true, beq_iff_eq] at ends
        rcases ends with rfl | rfl <;> decide
      rw [List.reverse_cons, dropWhile_to_solid own.1]
      intro c first
      simp [own.2] at first
      exact first ▸ ends

/-- A text that ends in no padding is the same before a tail as without one. -/
theorem beforeTail_cleaned_append {text tail : String} {last : Char}
    (ends : text.toList.getLast? = some last) (solid : isPadding last = false)
    (inside : ∀ c ∈ text.toList, endsPath c = false)
    (marked : ∀ c ∈ tail.toList.head?, endsPath c = true)
    : beforeTail (cleaned (text ++ tail)) = beforeTail (cleaned text) := by
  obtain ⟨front, spelled⟩ := List.getLast?_eq_some_iff.mp ends
  have whole : (text ++ tail).toList = front ++ last :: tail.toList := by simp [spelled]
  have alone : cleaned text = (front.dropWhile isPadding ++ [last]).filter (!isIgnored ·) :=
    cleaned_of_solid spelled solid
  have both : cleaned (text ++ tail)
      = cleaned text
        ++ (tail.toList.reverse.dropWhile isPadding).reverse.filter (!isIgnored ·) := by
    rw [cleaned_of_solid whole solid, alone, ← List.filter_append, List.append_assoc,
      List.singleton_append]
  have kept : ∀ c ∈ cleaned text, endsPath c = false := by
    intro c member
    rw [alone] at member
    rw [spelled] at inside
    rcases List.mem_append.mp (List.mem_filter.mp member).1 with before | here
    · exact inside c (List.mem_append_left _ ((List.dropWhile_suffix _).subset before))
    · exact inside c (List.mem_append_right _ here)
  have plain : beforeTail (cleaned text) = cleaned text := by
    have nothing : ∀ c ∈ ([] : List Char).head?, endsPath c = true := nofun
    simpa using beforeTail_append kept nothing
  rw [both, beforeTail_append kept (head?_trimmed marked), plain]

end DocPipeline.Url
