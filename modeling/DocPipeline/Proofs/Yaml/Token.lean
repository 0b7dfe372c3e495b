import DocPipeline.Proofs.Yaml.Block
import DocPipeline.Proofs.Yaml.Plain
import DocPipeline.Proofs.Yaml.Quoted
import DocPipeline.Proofs.Yaml.Scan

/-! Tokens of written documents, one after the other: keys with their colons, dashes, scalars and
empty collections. Each lemma says where the scanner comes to stand and which kinds of tokens it
adds.
-/

namespace DocPipeline.Yaml.Scanner

variable {s a : Scanner} {column : Nat} {text : List Char} {margins : List Nat}
  {kinds : List Token.Kind} {allowed : Bool}

-----------------------------------------------------------------------------------------
-- Plain scalars
-----------------------------------------------------------------------------------------

/-- Characters that a plain scalar can begin with, given what follows. -/
structure BeginsPlain (c : Char) (rest : List Char) : Prop where
  solid : isSpacing c = false
  stays : isBreak c = false
  free : isIndicator c = false ∨ ((c = '-' ∨ c = '?' ∨ c = ':') ∧ endsWord rest = false)

theorem BeginsPlain.startsPlain {c : Char} {rest : List Char} (begins : BeginsPlain c rest)
    : startsPlain false c rest = true := by
  obtain ⟨solid, stays, free⟩ := begins
  unfold Scanner.startsPlain
  rcases free with free | ⟨rfl | rfl | rfl, goesOn⟩
  · simp [solid, stays, free]
  · cases rest with
    | nil => cases goesOn
    | cons d rest =>
        rw [endsWord, Bool.or_eq_false_iff] at goesOn
        simp [goesOn.1]
  · simp [goesOn]
  · simp [goesOn]

/-- The first character of a plain scalar begins no other token. -/
theorem fetch_plain {c : Char} {rest : List Char} (outside : s.outer = [])
    (begins : BeginsPlain c rest) (inside : isSeparator s.mark (c :: rest) = false)
    : s.fetch c rest = s.plain := by
  have flat : s.inFlow = false := by simp [inFlow, outside]
  have starts := begins.startsPlain
  obtain ⟨_, _, free⟩ := begins
  unfold fetch
  rcases free with free | ⟨rfl | rfl | rfl, goesOn⟩
  · simp [isIndicator] at free
    simp [inside, free, flat, starts]
  · simp [inside, goesOn, flat, starts]
  · simp [inside, goesOn, flat, starts]
  · simp [inside, goesOn, flat, starts]

/-- The key that may begin here. -/
def offer (s : Scanner) : Option PossibleKey :=
  if s.keyAllowed then
    some ⟨s.tokens.size, s.mark, decide (s.margin = s.mark.column + 1)⟩
  else none

theorem dropKey_none (none : s.key = none) : s.dropKey = .ok s := by
  unfold dropKey
  rw [none]

theorem Stands.saveKey_eq (stands : Stands s column text margins kinds allowed)
    : s.saveKey = .ok { s with key := s.offer } := by
  obtain ⟨_, _, _, keyAllowed, key, outer⟩ := s
  obtain rfl : outer = [] := stands.outside
  obtain rfl : key = none := stands.noKey
  cases keyAllowed <;> rfl

theorem Stands.plain_eq {cs : List Char} {broken : Bool} {behind : Cursor}
    (stands : Stands s column text margins kinds allowed)
    (found : Scalar.plain false (margins.headD 0) s.cursor = .ok (cs, broken, behind))
    : s.plain = .ok ({ s with key := s.offer, cursor := behind, keyAllowed := broken }.push
        (.scalar cs .plain) s.mark behind.mark) := by
  have flat : ({ s with key := s.offer } : Scanner).inFlow = false := by
    simp [inFlow, stands.outside]
  have margin : ({ s with key := s.offer } : Scanner).margin = margins.headD 0 := by
    rw [Scanner.margin, stands.margins]
  unfold Scanner.plain
  rw [stands.saveKey_eq, Except.ok_bind, flat, margin]
  dsimp only
  rw [found]
  rfl

-----------------------------------------------------------------------------------------
-- Keys
-----------------------------------------------------------------------------------------

/-- The scanner stands before the colon behind a name, which it remembers as a possible key. -/
structure Offers (s : Scanner) (column : Nat) (key rest : List Char) (margins : List Nat)
    (kinds : List Token.Kind) : Prop where
  text : s.cursor.rest = ':' :: rest
  outside : s.outer = []
  margins : s.margins = margins
  offered : ∃ (front : List Token) (mark : Mark) (required : Bool),
    s.tokens.toList = front ++ [⟨.scalar key .plain, mark, s.mark⟩]
    ∧ front.map (·.kind) = kinds ∧ s.key = some ⟨front.length, mark, required⟩
    ∧ mark.column = column ∧ s.mark = mark.advance key.length

theorem Stands.fetch_key {c : Char} {key rest : List Char} (known : IsKey (c :: key))
    (behind : endsWord rest = true)
    (stands : Stands s column (c :: key ++ ':' :: rest) margins kinds true)
    : ∃ t, s.fetch c (key ++ ':' :: rest) = .ok t
      ∧ Offers t column (c :: key) rest margins kinds := by
  have first := known.plain c List.mem_cons_self
  have begins : BeginsPlain c (key ++ ':' :: rest) :=
    ⟨isSpacing_of_isKeyChar first, isBreak_of_isKeyChar first,
      .inl (isIndicator_of_isKeyChar first)⟩
  have inside : isSeparator s.mark (c :: (key ++ ':' :: rest)) = false :=
    isSeparator_of_ne (ne_of_isKeyChar first (by decide)) (ne_of_isKeyChar first (by decide)) _ _
  refine ⟨_, (fetch_plain stands.outside begins inside).trans
    (stands.plain_eq (Scalar.plain_of_isKey known behind stands.text)), ?_⟩
  refine ⟨rfl, stands.outside, stands.margins, s.tokens.toList, s.mark,
    decide (s.margin = s.mark.column + 1), ?_, stands.kinds, ?_, stands.column, rfl⟩
  · exact Array.toList_push
  · change s.offer = _
    rw [offer, stands.allowed, if_pos rfl, Array.length_toList]

theorem fetch_colon {rest : List Char} (behind : endsWord rest = true)
    : s.fetch ':' rest = s.value := by
  have inside : isSeparator s.mark (':' :: rest) = false :=
    isSeparator_of_ne (by decide) (by decide) _ _
  unfold fetch
  simp [inside, behind]

/-- Before its colon a name is still a possible key, and no block ends there. -/
theorem Offers.approach_eq {key rest : List Char} (known : IsKey key)
    (offers : Offers s column key rest margins kinds) (fits : margins.headD 0 ≤ column + 1)
    : s.approach = .ok s := by
  obtain ⟨front, mark, required, _, _, offered, place, here⟩ := offers.offered
  have content : IsContent column (':' :: rest) := ⟨by decide, by decide, by decide, by decide⟩
  have found := toNextToken_content content s.inFlow s.keyAllowed s.mark
  rw [← offers.text] at found
  have fresh : PossibleKey.isStale ⟨front.length, mark, required⟩ s.mark = false := by
    have short := known.short
    simpa [PossibleKey.isStale, here, Mark.advance] using short
  have kept : s.dropStaleKeys = .ok s := by
    unfold dropStaleKeys
    rw [offered, offers.outside]
    simp only [refresh, fresh]
    change Except.ok { s with key := _, outer := [] } = _
    rw [← offered, ← offers.outside]
  have open' : s.margin ≤ s.mark.column + 1 := by
    rw [margin, offers.margins, here]
    change margins.headD 0 ≤ mark.column + key.length + 1
    omega
  rw [approach_of_kept found kept, unroll_shallow open']

/-- The colon makes a key of the name before it, and opens a mapping if that is a new one. -/
theorem Offers.value_eq {key rest : List Char} (offers : Offers s column key rest margins kinds)
    : ∃ t, s.value = .ok t
      ∧ Stands t (column + key.length + 1) rest (opened .blockMappingStart column margins).1
          (kinds ++ (opened .blockMappingStart column margins).2
            ++ [.key, .scalar key .plain, .value]) false := by
  obtain ⟨front, mark, required, parts, known, offered, place, here⟩ := offers.offered
  have named := insert_tokens parts .key mark
  obtain ⟨tokens, rolled, all⟩ := @roll_opened (s.insert front.length .key mark) front
    (⟨.key, mark, mark⟩ :: [⟨.scalar key .plain, mark, s.mark⟩]) offers.outside named
    .blockMappingStart mark
  have columns : s.mark.column = column + key.length := by
    rw [here, ← place]
    rfl
  refine ⟨{ s with
      tokens := tokens, margins := (opened .blockMappingStart mark.column s.margins).1,
      key := none, keyAllowed := false }.take .value 1, ?_, ?_⟩
  · unfold Scanner.value
    rw [offered]
    dsimp only
    rw [rolled]
    rfl
  · rw [place, offers.margins]
    refine ⟨?_, congrArg (· + 1) columns, offers.outside, rfl, rfl, rfl, ?_⟩
    · change s.cursor.rest.drop 1 = rest
      rw [offers.text]
      rfl
    · change (tokens.push _).toList.map _ = _
      change _ = front.map _ ++ (opened _ mark.column s.margins).2 ++ _ at all
      rw [Array.toList_push, List.map_append, all, known, place, offers.margins]
      simp

/-- A key with its colon is read in two steps. -/
theorem Lands.reads_key {key rest : List Char} (known : IsKey key) (behind : endsWord rest = true)
    (lands : Lands s column (key ++ ':' :: rest) margins kinds)
    (fits : margins.headD 0 ≤ column + 1)
    : ∃ t, Reads s t
      ∧ Stands t (column + key.length + 1) rest (opened .blockMappingStart column margins).1
          (kinds ++ (opened .blockMappingStart column margins).2
            ++ [.key, .scalar key .plain, .value]) false := by
  obtain ⟨a, near, stands⟩ := lands.approach fits
  cases key with
  | nil => exact absurd rfl known.nonempty
  | cons c key =>
      obtain ⟨b, fetched, offers⟩ := stands.fetch_key known behind
      obtain ⟨t, done, last⟩ := offers.value_eq
      have length := lands.length_le
      have first : Reads s b := by
        refine Reads.of_fetch near stands.text fetched ?_
        rw [offers.text]
        rw [List.length_append, List.length_cons, List.length_cons] at length
        rw [List.length_cons]
        omega
      have second : Reads b t := by
        refine Reads.of_fetch (offers.approach_eq known fits) offers.text
          ((fetch_colon behind).trans done) ?_
        rw [offers.text, last.text, List.length_cons]
        exact Nat.lt_succ_self _
      exact ⟨t, first.trans second, last⟩

-----------------------------------------------------------------------------------------
-- Dashes
-----------------------------------------------------------------------------------------

theorem fetch_dash {rest : List Char} (behind : endsWord rest = true)
    : s.fetch '-' rest = s.blockEntry := by
  have inside : isSeparator s.mark ('-' :: rest) = false := by
    unfold isSeparator
    split
    next same =>
      rw [(List.cons.inj same).2] at behind
      cases behind
    next same => cases same
    next => exact Bool.and_false _
  unfold fetch
  simp [inside, behind]

/-- A dash opens a sequence if that is a new one. -/
theorem Stands.blockEntry_eq {rest : List Char}
    (stands : Stands s column ('-' :: rest) margins kinds true)
    : ∃ t, s.blockEntry = .ok t
      ∧ Stands t (column + 1) rest (opened .blockSequenceStart column margins).1
          (kinds ++ (opened .blockSequenceStart column margins).2 ++ [.blockEntry]) true := by
  obtain ⟨tokens, rolled, all⟩ := roll_opened stands.outside (List.append_nil s.tokens.toList).symm
    .blockSequenceStart s.mark
  rw [Array.length_toList] at rolled
  refine ⟨{ s with
      tokens := tokens, margins := (opened .blockSequenceStart s.mark.column s.margins).1,
      keyAllowed := true }.take .blockEntry 1, ?_, ?_⟩
  · unfold Scanner.blockEntry
    rw [stands.allowed, rolled, Bool.not_true, Bool.and_false, if_neg Bool.false_ne_true]
    dsimp only
    rw [dropKey_none (by exact stands.noKey), Except.ok_bind]
    rfl
  · rw [stands.column, stands.margins]
    refine ⟨?_, congrArg (· + 1) stands.column, stands.outside, stands.noKey, rfl, rfl, ?_⟩
    · change s.cursor.rest.drop 1 = rest
      rw [stands.text]
      rfl
    · change (tokens.push _).toList.map _ = _
      rw [Array.toList_push, List.map_append, all, stands.column, stands.margins]
      change s.kinds ++ _ ++ [] ++ _ = _
      rw [stands.kinds, List.append_nil]
      rfl

theorem Lands.reads_dash {rest : List Char} (behind : endsWord rest = true)
    (lands : Lands s column ('-' :: rest) margins kinds) (fits : margins.headD 0 ≤ column + 1)
    : ∃ t, Reads s t
      ∧ Stands t (column + 1) rest (opened .blockSequenceStart column margins).1
          (kinds ++ (opened .blockSequenceStart column margins).2 ++ [.blockEntry]) true := by
  obtain ⟨a, near, stands⟩ := lands.approach fits
  obtain ⟨t, done, last⟩ := stands.blockEntry_eq
  refine ⟨t, Reads.of_fetch near stands.text ((fetch_dash behind).trans done) ?_, last⟩
  have length := lands.length_le
  rw [last.text]
  exact length

-----------------------------------------------------------------------------------------
-- Scalars
-----------------------------------------------------------------------------------------

open Writer (spaces formOf)

/-- The style in which a text is read back. -/
def styleOf (t : String) : Style :=
  match formOf t with
  | .plain => .plain
  | .single => .quoted
  | .double => .quoted
  | .block => .block

/-- Behind a colon or a dash and a space, the scanner comes to stand before what follows there. -/
theorem Stands.approach_space (stands : Stands s column (' ' :: text) margins kinds allowed)
    (content : IsContent (column + 1) text) (fits : margins.headD 0 ≤ column + 1)
    : ∃ a, s.approach = .ok a ∧ Stands a (column + 1) text margins kinds allowed := by
  have found := (toNextToken_spaces s.inFlow s.keyAllowed 1 text s.mark).trans
    (toNextToken_content content _ _ _)
  change toNextToken _ _ _ (' ' :: text) _ = _ at found
  rw [← stands.text] at found
  let near : Scanner := { s with cursor := ⟨text, s.mark.advance 1⟩ }
  have kept : near.dropStaleKeys = .ok near := by
    unfold dropStaleKeys
    simp only [near, stands.noKey, stands.outside]
    change Except.ok { s with cursor := _, key := none, outer := [] } = _
    rw [← stands.noKey, ← stands.outside]
  have shallow : near.margin ≤ near.mark.column + 1 := by
    change s.margin ≤ s.mark.column + 1 + 1
    rw [margin, stands.margins, stands.column]
    omega
  refine ⟨near, ?_, rfl, congrArg (· + 1) stands.column, stands.outside, stands.noKey,
    stands.allowed, stands.margins, stands.kinds⟩
  rw [approach_of_kept found kept, unroll_shallow shallow]

/-- A scalar that lies deeper than the block around it is no required key. -/
theorem Stands.offer_forgets {place : Mark}
    (stands : Stands s column text margins kinds allowed) (deep : margins.headD 0 ≤ column)
    (later : s.mark.line < place.line)
    : ∀ key ∈ s.offer, key.required = false ∧ key.mark.line < place.line := by
  intro key member
  unfold offer at member
  split at member
  · obtain rfl := Option.mem_some.mp member
    refine ⟨?_, later⟩
    rw [decide_eq_false_iff_not, margin, stands.margins, stands.column]
    omega
  · cases member

/-- The next token is one of these kinds, and behind it the scanner lands in the column before the
line.
-/
def Gives (a : Scanner) (column : Nat) (line : List Char) (margins : List Nat)
    (kinds : List Token.Kind) : Prop :=
  ∃ c rest t, a.cursor.rest = c :: rest ∧ a.fetch c rest = .ok t
    ∧ t.cursor.rest.length ≤ rest.length ∧ Lands t column line margins kinds

variable {t : String} {margin n : Nat} {line : List Char}

/-- Behind a token the scanner lands where white space ends. -/
theorem Stands.lands_push {key : Option PossibleKey} {behind : Cursor} {broken : Bool}
    {kind : Token.Kind} {start place : Mark}
    (stands : Stands a column text margins kinds allowed) (col : place.column = n)
    (forgets : ∀ k ∈ key, k.required = false ∧ k.mark.line < place.line)
    (found : toNextToken false broken false behind.rest behind.mark = (true, ⟨line, place⟩))
    : Lands ({ a with key := key, cursor := behind, keyAllowed := broken }.push kind start
        behind.mark) n line margins (kinds ++ [kind]) where
  outside := stands.outside
  place := ⟨place, col, forgets, found⟩
  blocks := by
    refine ⟨[], stands.margins, by simp, ?_⟩
    change (a.tokens.push _).toList.map _ ++ [] = _
    rw [Array.toList_push, List.map_append, List.append_nil]
    change a.kinds ++ _ = _
    rw [stands.kinds]
    rfl

theorem beginsPlain_of_isPlainText {c : Char} {cs : List Char} (known : Scalar.IsPlainText t c cs)
    (rest : List Char) : BeginsPlain c (cs ++ '\n' :: rest) := by
  have begins := known.beginsWell
  have printable := known.printable c List.mem_cons_self
  refine ⟨?_, known.oneLine c List.mem_cons_self, ?_⟩
  · rw [isSpacing_of_isPrintable printable, beq_eq_false_iff_ne]
    exact known.solidStart
  · rw [endsWord_append cs rest (by decide)]
    simp [Writer.startsBadly] at begins
    simp [isIndicator]
    grind

theorem Stands.gives_plain (form : formOf t = .plain)
    (stands : Stands a column (t.toList ++ '\n' :: (spaces n ++ line)) (margin :: margins) kinds
      allowed)
    (deep : margin ≤ column) (content : IsContent n line) (outside : n < margin)
    : Gives a n line (margin :: margins) (kinds ++ [.scalar t.toList .plain]) := by
  obtain ⟨c, cs, known⟩ := Scalar.isPlainText_of_form form
  obtain ⟨place, col, next, read⟩ := Scalar.plain_of_form form stands.text content outside
    (by rw [← stands.column] at deep; exact deep)
  have text : a.cursor.rest = c :: (cs ++ '\n' :: (spaces n ++ line)) := by
    rw [stands.text, known.parts, List.cons_append]
  have inside : isSeparator a.mark (c :: (cs ++ '\n' :: (spaces n ++ line))) = false :=
    isSeparator_of_pos (by rw [stands.column]; omega) _
  refine ⟨c, _, _, text,
    (fetch_plain stands.outside (beginsPlain_of_isPlainText known _) inside).trans
      (stands.plain_eq read), ?_, stands.lands_push col ?_ (toNextToken_content content _ _ _)⟩
  · change line.length ≤ _
    simp only [List.length_append, List.length_cons]
    omega
  · exact stands.offer_forgets deep (by rw [next]; exact Nat.lt_succ_self _)

theorem Stands.content_eq {α : Type} {read : Cursor → Except Fault (α × Cursor)}
    {kind : α → Token.Kind} {parts : α} {behind : Cursor}
    (stands : Stands s column text margins kinds allowed)
    (found : read s.cursor = .ok (parts, behind))
    : s.content read kind
      = .ok ({ s with key := s.offer, cursor := behind, keyAllowed := false }.push (kind parts)
          s.mark behind.mark) := by
  unfold content
  rw [stands.saveKey_eq]
  change (read s.cursor >>= _) = _
  rw [found]
  rfl

/-- A scalar in quotes leaves the end of its line behind. -/
theorem Stands.gives_quoted {c : Char} {cs rest : List Char} {place : Mark}
    {read : Cursor → Except Fault (List Char × Cursor)}
    (stands : Stands a column (c :: rest) (margin :: margins) kinds allowed)
    (fetched : a.fetch c rest = a.content read (.scalar · .quoted))
    (found : read a.cursor = .ok (cs, ⟨'\n' :: (spaces n ++ line), place⟩))
    (shorter : ('\n' :: (spaces n ++ line)).length ≤ rest.length)
    (later : a.mark.line ≤ place.line) (deep : margin ≤ column) (content : IsContent n line)
    : Gives a n line (margin :: margins) (kinds ++ [.scalar cs .quoted]) := by
  have next : ((place.nextLine 1).advance n).column = n := Nat.zero_add n
  refine ⟨c, rest, _, stands.text, fetched.trans (stands.content_eq found), shorter,
    stands.lands_push next ?_ ?_⟩
  · exact stands.offer_forgets deep (Nat.lt_succ_of_le later)
  · rw [toNextToken_newline, toNextToken_spaces, toNextToken_content content]

theorem Stands.gives_single (form : formOf t = .single)
    (stands : Stands a column (Writer.scalar (margin + 1) t ++ (spaces n ++ line))
      (margin :: margins) kinds allowed)
    (deep : margin ≤ column) (content : IsContent n line)
    : Gives a n line (margin :: margins) (kinds ++ [.scalar t.toList .quoted]) := by
  have written : Writer.scalar (margin + 1) t ++ (spaces n ++ line)
      = '\'' :: (Writer.singleFrom (margin + 1) false t.toList
        ++ '\'' :: '\n' :: (spaces n ++ line)) := by
    simp [Writer.scalar, form]
  rw [written] at stands
  obtain ⟨place, later, found⟩ :=
    Scalar.quoted_of_single form (Nat.succ_pos margin) stands.text
  have inside (rest : List Char) : isSeparator a.mark ('\'' :: rest) = false :=
    isSeparator_of_ne (by decide) (by decide) _ _
  refine stands.gives_quoted ?_ found ?_ later deep content
  · unfold fetch
    simp [inside]
  · simp only [List.length_append, List.length_cons]
    omega

theorem Stands.gives_double (form : formOf t = .double)
    (stands : Stands a column (Writer.scalar (margin + 1) t ++ (spaces n ++ line))
      (margin :: margins) kinds allowed)
    (deep : margin ≤ column) (content : IsContent n line)
    : Gives a n line (margin :: margins) (kinds ++ [.scalar t.toList .quoted]) := by
  have written : Writer.scalar (margin + 1) t ++ (spaces n ++ line)
      = '"' :: (t.toList.flatMap Writer.doubleChar ++ '"' :: '\n' :: (spaces n ++ line)) := by
    simp [Writer.scalar, form]
  rw [written] at stands
  obtain ⟨place, later, found⟩ := Scalar.quoted_of_double stands.text
  have inside (rest : List Char) : isSeparator a.mark ('"' :: rest) = false :=
    isSeparator_of_ne (by decide) (by decide) _ _
  refine stands.gives_quoted ?_ found ?_ later deep content
  · unfold fetch
    simp [inside]
  · simp only [List.length_append, List.length_cons]
    omega

theorem Stands.gives_block (form : formOf t = .block)
    (stands : Stands a column (Writer.scalar (margin + 1) t ++ (spaces n ++ line))
      (margin :: margins) kinds allowed)
    (pos : 0 < margin) (content : IsContent n line) (outside : n < margin)
    : Gives a n line (margin :: margins) (kinds ++ [.scalar t.toList .block]) := by
  have written : Writer.scalar (margin + 1) t ++ (spaces n ++ line)
      = Writer.blockHeader t.toList ++ '\n' :: (Writer.blockLines (margin + 1) true t.toList
        ++ (Scalar.lineEnd t.toList ++ (spaces n ++ line))) := by
    simp [Writer.scalar, form, Scalar.lineEnd]
  rw [written] at stands
  obtain ⟨place, col, found⟩ := Scalar.block_of_form form pos stands.text content
    (Nat.lt_succ_of_lt outside)
  have flat : a.inFlow = false := by simp [inFlow, stands.outside]
  have margin_eq : a.margin = margin := by
    rw [Scanner.margin, stands.margins]
    rfl
  have inside (rest : List Char) : isSeparator a.mark ('|' :: rest) = false :=
    isSeparator_of_ne (by decide) (by decide) _ _
  have fetched (rest : List Char) : a.fetch '|' rest = a.block true := by
    unfold fetch
    simp [inside, flat]
  have done : a.block true
      = .ok ({ a with cursor := ⟨line, place⟩, keyAllowed := true }.push
          (.scalar t.toList .block) a.mark place) := by
    unfold Scanner.block
    rw [dropKey_none stands.noKey]
    change (Scalar.block true a.margin a.cursor >>= _) = _
    rw [margin_eq, found]
    rfl
  have text := stands.text
  rw [Scalar.blockHeader_eq, List.cons_append] at text
  refine ⟨'|', _, _, text, (fetched _).trans done, ?_,
    stands.lands_push col ?_ (toNextToken_content content _ _ _)⟩
  · change line.length ≤ _
    simp only [List.length_append, List.length_cons]
    omega
  · intro key member
    rw [stands.noKey] at member
    cases member

/-- A written scalar gives its text, in the style it is written in; by cases on the form. -/
theorem Stands.gives_scalar
    (stands : Stands a column (Writer.scalar (margin + 1) t ++ (spaces n ++ line))
      (margin :: margins) kinds allowed)
    (pos : 0 < margin) (deep : margin ≤ column) (content : IsContent n line) (outside : n < margin)
    : Gives a n line (margin :: margins) (kinds ++ [.scalar t.toList (styleOf t)]) := by
  cases form : formOf t with
  | plain =>
      have written : Writer.scalar (margin + 1) t ++ (spaces n ++ line)
          = t.toList ++ '\n' :: (spaces n ++ line) := by
        simp [Writer.scalar, form]
      rw [written] at stands
      rw [styleOf, form]
      exact stands.gives_plain form deep content outside
  | single =>
      rw [styleOf, form]
      exact stands.gives_single form deep content
  | double =>
      rw [styleOf, form]
      exact stands.gives_double form deep content
  | block =>
      rw [styleOf, form]
      exact stands.gives_block form pos content outside

/-- A written scalar begins with no white space and no comment. -/
theorem isContent_scalar (column indent : Nat) (t : String) (rest : List Char)
    : IsContent column (Writer.scalar indent t ++ rest) := by
  unfold Writer.scalar
  cases form : formOf t with
  | plain =>
      obtain ⟨c, cs, known⟩ := Scalar.isPlainText_of_form form
      have printable := known.printable c List.mem_cons_self
      have begins := known.beginsWell
      dsimp only
      rw [known.parts]
      refine ⟨?_, known.oneLine c List.mem_cons_self, ?_, ne_of_isPrintable printable (by decide)⟩
      · rw [isSpacing_of_isPrintable printable, beq_eq_false_iff_ne]
        exact known.solidStart
      · rintro rfl
        simp [Writer.startsBadly] at begins
  | single => exact ⟨by decide, by decide, by decide, by decide⟩
  | double => exact ⟨by decide, by decide, by decide, by decide⟩
  | block =>
      dsimp only
      rw [Scalar.blockHeader_eq]
      exact ⟨by decide, by decide, by decide, by decide⟩

/-- A written scalar behind a colon or a dash is read in one step. -/
theorem Stands.reads_scalar
    (stands : Stands s column (' ' :: (Writer.scalar (margin + 1) t ++ (spaces n ++ line)))
      (margin :: margins) kinds allowed)
    (pos : 0 < margin) (deep : margin ≤ column) (content : IsContent n line) (outside : n < margin)
    : ∃ u, Reads s u
      ∧ Lands u n line (margin :: margins) (kinds ++ [.scalar t.toList (styleOf t)]) := by
  obtain ⟨a, near, there⟩ := stands.approach_space (isContent_scalar _ _ _ _)
    (Nat.le_succ_of_le deep)
  obtain ⟨c, rest, u, text, fetched, shorter, lands⟩ :=
    there.gives_scalar pos (Nat.le_succ_of_le deep) content outside
  refine ⟨u, Reads.of_fetch near text fetched ?_, lands⟩
  rw [there.text] at text
  rw [stands.text, List.length_cons, text, List.length_cons]
  omega

-----------------------------------------------------------------------------------------
-- Empty collections
-----------------------------------------------------------------------------------------

/-- The two brackets of a kind of collections. -/
structure IsBrackets (c d : Char) (first last : Token.Kind) : Prop where
  opens : ∀ (s : Scanner) (rest : List Char), s.fetch c rest = s.openFlow first
  closes : ∀ (s : Scanner) (rest : List Char), s.fetch d rest = s.closeFlow last
  openContent : ∀ rest, IsContent 0 (c :: rest)
  closeContent : ∀ rest, IsContent 0 (d :: rest)

theorem isBrackets_sequence : IsBrackets '[' ']' .flowSequenceStart .flowSequenceEnd where
  opens s rest := by
    have inside : isSeparator s.mark ('[' :: rest) = false :=
      isSeparator_of_ne (by decide) (by decide) _ _
    unfold fetch
    simp [inside]
  closes s rest := by
    have inside : isSeparator s.mark (']' :: rest) = false :=
      isSeparator_of_ne (by decide) (by decide) _ _
    unfold fetch
    simp [inside]
  openContent _ := ⟨by decide, by decide, by decide, by decide⟩
  closeContent _ := ⟨by decide, by decide, by decide, by decide⟩

theorem isBrackets_mapping : IsBrackets '\x7b' '\x7d' .flowMappingStart .flowMappingEnd where
  opens s rest := by
    have inside : isSeparator s.mark ('\x7b' :: rest) = false :=
      isSeparator_of_ne (by decide) (by decide) _ _
    unfold fetch
    simp [inside]
  closes s rest := by
    have inside : isSeparator s.mark ('\x7d' :: rest) = false :=
      isSeparator_of_ne (by decide) (by decide) _ _
    unfold fetch
    simp [inside]
  openContent _ := ⟨by decide, by decide, by decide, by decide⟩
  closeContent _ := ⟨by decide, by decide, by decide, by decide⟩

/-- Inside brackets that were just opened the closing one is next, and what may be a key before them
still may be one.
-/
theorem approach_in_brackets {rest : List Char} {key : Option PossibleKey}
    (text : s.cursor.rest = rest) (content : IsContent 0 rest) (noKey : s.key = none)
    (outer : s.outer = [key])
    (fresh : ∀ k ∈ key, PossibleKey.isStale k s.mark = false)
    : s.approach = .ok s := by
  have nested : s.inFlow = true := by simp [inFlow, outer]
  have found := toNextToken_content content s.inFlow s.keyAllowed s.mark
  have still : refresh s.mark key = .ok key := by
    cases key with
    | none => rfl
    | some k => rw [refresh, fresh k rfl, if_neg Bool.false_ne_true]
  have kept : s.dropStaleKeys = .ok s := by
    unfold dropStaleKeys
    rw [noKey, outer]
    change (refresh s.mark key >>= fun k => Except.ok [k]) >>= _ = _
    rw [still]
    change Except.ok { s with key := none, outer := [key] } = _
    rw [← noKey, ← outer]
  have same : s.unroll (s.mark.column + 1) = s := by
    unfold unroll
    rw [nested, if_pos rfl]
  rw [← text] at found
  rw [approach_of_kept found kept, same]

/-- An empty collection behind a colon or a dash is read in two steps, bracket by bracket. -/
theorem Stands.reads_empty {c d : Char} {first last : Token.Kind}
    (brackets : IsBrackets c d first last)
    (stands : Stands s column (' ' :: c :: d :: '\n' :: (spaces n ++ line)) (margin :: margins)
      kinds allowed)
    (deep : margin ≤ column) (content : IsContent n line)
    : ∃ u, Reads s u ∧ Lands u n line (margin :: margins) (kinds ++ [first, last]) := by
  obtain ⟨a, near, there⟩ := stands.approach_space
    (brackets.openContent (d :: '\n' :: (spaces n ++ line))) (Nat.le_succ_of_le deep)
  let b : Scanner := { a with
    key := none, outer := a.offer :: a.outer, keyAllowed := true }.take first 1
  let u : Scanner := { b with key := a.offer, outer := a.outer, keyAllowed := false }.take last 1
  have bText : b.cursor.rest = d :: '\n' :: (spaces n ++ line) := by
    change a.cursor.rest.drop 1 = _
    rw [there.text]
    rfl
  have uText : u.cursor.rest = '\n' :: (spaces n ++ line) := by
    change b.cursor.rest.drop 1 = _
    rw [bText]
    rfl
  have opened : a.fetch c (d :: '\n' :: (spaces n ++ line)) = .ok b := by
    rw [brackets.opens, openFlow, there.saveKey_eq]
    rfl
  have bNear : b.approach = .ok b := by
    refine approach_in_brackets bText (brackets.closeContent _) rfl
      (congrArg (a.offer :: ·) there.outside) fun k member => ?_
    have here : k.mark = a.mark := by
      unfold offer at member
      split at member
      · obtain rfl := Option.mem_some.mp member
        rfl
      · cases member
    change PossibleKey.isStale k (a.mark.advance 1) = false
    simp [PossibleKey.isStale, here, Mark.advance, longestKey]
  have closed : b.fetch d ('\n' :: (spaces n ++ line)) = .ok u := by
    rw [brackets.closes, closeFlow, dropKey_none (by rfl)]
    rfl
  refine ⟨u, (Reads.of_fetch near there.text opened ?_).trans
    (Reads.of_fetch bNear bText closed ?_), there.outside, ?_, [], there.margins, by simp, ?_⟩
  · rw [bText, stands.text]
    simp
  · rw [bText, uText]
    simp
  · refine ⟨(u.mark.nextLine 1).advance n, Nat.zero_add n,
      there.offer_forgets (Nat.le_succ_of_le deep) (Nat.lt_succ_self _), ?_⟩
    rw [uText]
    change toNextToken false false false _ _ = _
    rw [toNextToken_newline, toNextToken_spaces, toNextToken_content content]
  · change ((a.tokens.push _).push _).toList.map _ ++ [] = _
    rw [Array.toList_push, Array.toList_push, List.map_append, List.map_append, List.append_nil]
    change a.kinds ++ _ ++ _ = _
    rw [there.kinds, List.append_assoc]
    rfl

-----------------------------------------------------------------------------------------
-- The end of a text
-----------------------------------------------------------------------------------------

/-- At the end of the text the last block is closed. -/
theorem Stands.finish_eq (stands : Stands s 0 [] [1] kinds true)
    : ∃ tokens, s.finish = .ok tokens ∧ tokens.map (·.kind) = kinds ++ [.blockEnd, .streamEnd] := by
  let last : Scanner := { s with cursor := ⟨[], s.mark⟩ }
  obtain ⟨closed, done, known⟩ := @unroll_deeper last [] 0 [1] stands.outside
    (by rw [List.append_nil]; exact stands.margins) (by decide) (Nat.le_refl 0)
  have dropped : (last.unroll 0).dropKey = .ok (last.unroll 0) := by
    rw [done]
    exact dropKey_none stands.noKey
  have ended : last.endBlocks
      = .ok { last with margins := [], tokens := closed, keyAllowed := false } := by
    unfold endBlocks
    rw [dropped, done]
    rfl
  refine ⟨(closed.push ⟨.streamEnd, s.mark, s.mark⟩).toList, ?_, ?_⟩
  · unfold finish
    rw [if_pos stands.column]
    change last.endBlocks >>= _ = _
    rw [ended]
    rfl
  · rw [Array.toList_push, List.map_append, known]
    change s.kinds ++ _ ++ _ = _
    rw [stands.kinds, List.append_assoc]
    rfl

/-- Where the scanner lands at the end of the text, it ends. -/
theorem Lands.run_eq (lands : Lands s 0 [] [1] kinds) {steps : Nat} (enough : 0 < steps)
    : ∃ tokens, s.run steps = .ok tokens
      ∧ tokens.map (·.kind) = kinds ++ [.blockEnd, .streamEnd] := by
  obtain ⟨a, near, stands⟩ := lands.approach (by decide)
  obtain ⟨tokens, done, known⟩ := stands.finish_eq
  refine ⟨tokens, ?_, known⟩
  cases steps with
  | zero => cases enough
  | succ steps =>
      exact (run_finish near stands.text steps).trans done

end DocPipeline.Yaml.Scanner
