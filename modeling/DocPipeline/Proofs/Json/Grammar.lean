import DocPipeline.Proofs.Json.Spelling
import Mathlib.Data.List.TakeWhile

/-! Numbers and strings by the grammar of JSON. What the reader takes for one of them is what the
grammar derives as one: it takes a front of the text and leaves the characters behind it, and what
it has taken is read the same wherever it stands.
-/

namespace DocPipeline.Json

/-- Of the characters, the used ones stand in front and the rest is what is behind them. -/
def Leaves (cs used : List Char) (rest : List Symbol) : Prop :=
  ∃ tail, cs = used ++ tail ∧ rest = tail.map some

theorem Leaves.cons {cs used : List Char} {rest : List Symbol} (c : Char)
    (leaves : Leaves cs used rest) : Leaves (c :: cs) (c :: used) rest := by
  obtain ⟨tail, rfl, rfl⟩ := leaves
  exact ⟨tail, rfl, rfl⟩

/-- A text whose first symbol is a character begins with that character. -/
theorem eq_cons_of_map_some {cs : List Char} {c : Char} {symbols : List Symbol}
    (begins : cs.map some = some c :: symbols)
    : ∃ tail, cs = c :: tail ∧ symbols = tail.map some := by
  obtain ⟨_, tail, rfl, same, rfl⟩ := List.map_eq_cons_iff.mp begins
  cases same
  exact ⟨tail, rfl, rfl⟩

-----------------------------------------------------------------------------------------
-- Numbers
-----------------------------------------------------------------------------------------

/-- Digits, of which there is at least one. -/
structure IsDigits (ds : List Char) : Prop where
  nonempty : ds ≠ []
  all : ∀ c ∈ ds, c.isDigit = true

/-- A whole part is zero, or digits that do not begin with a zero. -/
inductive IsWhole : List Char → Prop
  | zero : IsWhole ['0']
  | digits {ds : List Char} (digits : IsDigits ds) (leads : ds.head? ≠ some '0') : IsWhole ds

/-- A fraction is nothing, or digits behind a point. -/
inductive IsFraction : List Char → Prop
  | nil : IsFraction []
  | point {ds : List Char} (digits : IsDigits ds) : IsFraction ('.' :: ds)

/-- A power has a sign or none. -/
def IsSign (sign : List Char) : Prop :=
  sign = [] ∨ sign = ['+'] ∨ sign = ['-']

/-- An exponent is nothing, or digits behind a letter and a sign. -/
inductive IsExponent : List Char → Prop
  | nil : IsExponent []
  | power {e : Char} {sign ds : List Char} (letter : e = 'e' ∨ e = 'E') (signed : IsSign sign)
    (digits : IsDigits ds) : IsExponent (e :: (sign ++ ds))

/-- A number has a whole part, which may be negative, a fraction and an exponent. -/
inductive IsNumber : List Char → Prop
  | positive {whole fraction exponent : List Char} (isWhole : IsWhole whole)
    (isFraction : IsFraction fraction) (isExponent : IsExponent exponent)
    : IsNumber (whole ++ fraction ++ exponent)
  | negative {whole fraction exponent : List Char} (isWhole : IsWhole whole)
    (isFraction : IsFraction fraction) (isExponent : IsExponent exponent)
    : IsNumber ('-' :: (whole ++ fraction ++ exponent))

variable {cs ds : List Char} {rest : List Symbol}

theorem IsDigits.begins (digits : IsDigits ds)
    : ∃ c tail, ds = c :: tail ∧ c.isDigit = true := by
  cases ds with
  | nil => exact absurd rfl digits.nonempty
  | cons c tail => exact ⟨c, tail, rfl, digits.all c List.mem_cons_self⟩

theorem IsWhole.isDigits (whole : IsWhole cs) : IsDigits cs := by
  cases whole with
  | zero => exact ⟨List.cons_ne_nil '0' [], List.forall_mem_singleton.mpr rfl⟩
  | digits digits _ => exact digits

theorem IsDigits.reads (digits : IsDigits ds) (stops : rest.head?.any Reader.isDigit = false)
    : Reader.digits (ds.map some ++ rest) = some (ds, rest) :=
  digits_append digits.nonempty digits.all stops

theorem IsWhole.reads (whole : IsWhole cs) (stops : rest.head?.any Reader.isDigit = false)
    : Reader.wholePart (cs.map some ++ rest) = some (cs, rest) := by
  cases whole with
  | zero =>
      change (if rest.head?.any Reader.isDigit = true then none else some (['0'], rest)) = _
      rw [stops]
      rfl
  | digits digits leads =>
      obtain ⟨c, tail, rfl, _⟩ := digits.begins
      have read := digits.reads stops
      unfold Reader.wholePart
      split
      next same =>
        cases same
        exact absurd rfl leads
      next => exact read

/-- A fraction ends where no digit follows it, and where no point could begin it. -/
theorem IsFraction.reads (fraction : IsFraction cs)
    (stops : rest.head?.any Reader.isDigit = false) (noPoint : rest.head? ≠ some (some '.'))
    : Reader.fractionPart (cs.map some ++ rest) = some (cs, rest) := by
  cases fraction with
  | nil =>
      unfold Reader.fractionPart
      split
      next same =>
        rw [List.map_nil, List.nil_append] at same
        subst same
        exact absurd rfl noPoint
      next => rfl
  | point digits =>
      have read := digits.reads stops
      rw [List.map_cons, List.cons_append, Reader.fractionPart, read]
      rfl

theorem IsExponent.reads (exponent : IsExponent cs) (ends : EndsNumber rest)
    : Reader.exponentPart (cs.map some ++ rest) = some (cs, rest) := by
  cases exponent with
  | nil => exact ends.exponentPart_eq
  | @power e sign ds letter signed digits =>
      have read := digits.reads ends.not_isDigit
      have isLetter : (e == 'e' || e == 'E') = true := by simpa using letter
      rcases signed with rfl | rfl | rfl
      · obtain ⟨c, tail, rfl, digit⟩ := digits.begins
        change (if _ then _ else _) = _
        rw [if_pos isLetter]
        split
        next same =>
          cases same
          exact absurd digit (by decide)
        next same =>
          cases same
          exact absurd digit (by decide)
        next =>
          change (Reader.digits ((c :: tail).map some ++ rest)).map _ = _
          rw [read]
          rfl
      all_goals
        change (if _ then (Reader.digits (ds.map some ++ rest)).map _ else _) = _
        rw [if_pos isLetter, read]
        rfl

/-- Behind the whole part and the fraction, an exponent or the end goes on with neither. -/
theorem IsExponent.stops (exponent : IsExponent cs) (ends : EndsNumber rest)
    : (cs.map some ++ rest).head?.any Reader.isDigit = false
      ∧ (cs.map some ++ rest).head? ≠ some (some '.') := by
  cases exponent with
  | nil =>
      refine ⟨ends.not_isDigit, ?_⟩
      intro point
      rw [List.map_nil, List.nil_append] at point
      rw [EndsNumber, point] at ends
      cases ends
  | power letter =>
      rcases letter with rfl | rfl <;> exact ⟨rfl, fun point => by cases point⟩

/-- Behind the whole part, a fraction does not go on with digits. -/
theorem IsFraction.stops (fraction : IsFraction cs)
    (stops : rest.head?.any Reader.isDigit = false)
    : (cs.map some ++ rest).head?.any Reader.isDigit = false := by
  cases fraction with
  | nil => exact stops
  | point => rfl

/-- The parts of a number behind its sign, one after the other. -/
def numberBehind (sign : List Char) (symbols : List Symbol) : Option (Json × List Symbol) := do
  let (whole, rest) ← Reader.wholePart symbols
  let (fraction, rest) ← Reader.fractionPart rest
  let (exponent, rest) ← Reader.exponentPart rest
  return (.number (sign ++ whole ++ fraction ++ exponent), rest)

theorem numberBehind_eq_some_iff {sign : List Char} {symbols : List Symbol} {json : Json}
    : numberBehind sign symbols = some (json, rest)
      ↔ ∃ whole behind fraction left exponent,
        Reader.wholePart symbols = some (whole, behind)
        ∧ Reader.fractionPart behind = some (fraction, left)
        ∧ Reader.exponentPart left = some (exponent, rest)
        ∧ json = .number (sign ++ whole ++ fraction ++ exponent) := by
  simp only [numberBehind, Option.bind_eq_bind, Option.pure_def, Option.bind_eq_some_iff,
    Option.some.injEq, Prod.mk.injEq, Prod.exists]
  constructor
  · rintro ⟨whole, behind, first, fraction, left, second, exponent, _, third, rfl, rfl⟩
    exact ⟨whole, behind, fraction, left, exponent, first, second, third, rfl⟩
  · rintro ⟨whole, behind, fraction, left, exponent, first, second, third, rfl⟩
    exact ⟨whole, behind, first, fraction, left, second, exponent, rest, third, rfl, rfl⟩

theorem number_negative (symbols : List Symbol)
    : Reader.number (some '-' :: symbols) = numberBehind ['-'] symbols :=
  rfl

theorem number_positive {symbols : List Symbol} (unsigned : ∀ tail, symbols ≠ some '-' :: tail)
    : Reader.number symbols = numberBehind [] symbols := by
  unfold Reader.number
  split
  next sign behind chosen =>
    split at chosen
    next => exact absurd rfl (unsigned _)
    next =>
      cases chosen
      rfl

theorem numberBehind_append {sign whole fraction exponent : List Char} (isWhole : IsWhole whole)
    (isFraction : IsFraction fraction) (isExponent : IsExponent exponent)
    (ends : EndsNumber rest)
    : numberBehind sign ((whole ++ fraction ++ exponent).map some ++ rest)
      = some (.number (sign ++ (whole ++ fraction ++ exponent)), rest) := by
  obtain ⟨noDigit, noPoint⟩ := isExponent.stops ends
  rw [numberBehind_eq_some_iff]
  refine ⟨whole, fraction.map some ++ (exponent.map some ++ rest), fraction,
    exponent.map some ++ rest, exponent, ?_, isFraction.reads noDigit noPoint,
    isExponent.reads ends, by simp only [List.append_assoc]⟩
  have read := isWhole.reads (isFraction.stops noDigit)
  simpa only [List.map_append, List.append_assoc] using read

/-- What the grammar derives as a number is a numeral. -/
theorem IsNumber.isNumeral (number : IsNumber cs) : IsNumeral cs := by
  cases number with
  | @positive whole fraction exponent isWhole isFraction isExponent =>
      obtain ⟨c, tail, same, digit⟩ := isWhole.isDigits.begins
      refine ⟨⟨c, tail ++ fraction ++ exponent, by rw [same]; rfl, .inl digit⟩, ?_⟩
      intro rest ends
      rw [number_positive, numberBehind_append isWhole isFraction isExponent ends]
      · rfl
      · intro other sign
        rw [same] at sign
        cases sign
        exact absurd digit (by decide)
  | negative isWhole isFraction isExponent =>
      refine ⟨⟨'-', _, rfl, .inr rfl⟩, ?_⟩
      intro rest ends
      rw [List.map_cons, List.cons_append, number_negative]
      exact numberBehind_append isWhole isFraction isExponent ends

/-- The digits at the front of a text are digits, with what the reader leaves behind them. -/
theorem leaves_of_digits (read : Reader.digits (cs.map some) = some (ds, rest))
    : IsDigits ds ∧ Leaves cs ds rest := by
  have front : (cs.map some).takeWhile Reader.isDigit = (cs.takeWhile Char.isDigit).map some :=
    List.takeWhile_map
  have behind : (cs.map some).dropWhile Reader.isDigit = (cs.dropWhile Char.isDigit).map some :=
    List.dropWhile_map
  unfold Reader.digits at read
  dsimp only at read
  rw [front, behind] at read
  split at read
  next => cases read
  next nonempty =>
    have same : ((cs.takeWhile Char.isDigit).map some).filterMap id
        = cs.takeWhile Char.isDigit := by simp
    rw [same] at read
    cases read
    refine ⟨⟨?_, fun c member => List.mem_takeWhile_imp member⟩,
      cs.dropWhile Char.isDigit, List.takeWhile_append_dropWhile.symm, rfl⟩
    intro empty
    rw [empty] at nonempty
    exact nonempty rfl

/-- Digits that are read behind a mark, which is put before them again. -/
theorem leaves_of_digits_behind (mark : List Char → List Char) {used : List Char}
    (read : (Reader.digits (cs.map some)).map (fun found => (mark found.1, found.2))
      = some (used, rest))
    : ∃ ds, IsDigits ds ∧ used = mark ds ∧ Leaves cs ds rest := by
  obtain ⟨⟨ds, left⟩, digits, joined⟩ := Option.map_eq_some_iff.mp read
  cases joined
  obtain ⟨isDigits, leaves⟩ := leaves_of_digits digits
  exact ⟨ds, isDigits, rfl, leaves⟩

theorem leaves_of_wholePart {whole : List Char}
    (read : Reader.wholePart (cs.map some) = some (whole, rest))
    : IsWhole whole ∧ Leaves cs whole rest := by
  cases cs with
  | nil => cases read
  | cons c cs =>
      by_cases zero : c = '0'
      · subst zero
        change (if _ then none else some (['0'], cs.map some)) = _ at read
        split at read
        next => cases read
        next =>
          cases read
          exact ⟨.zero, cs, rfl, rfl⟩
      · have digits : Reader.digits ((c :: cs).map some) = some (whole, rest) := by
          rw [← read]
          unfold Reader.wholePart
          split
          next same =>
            cases same
            exact absurd rfl zero
          next => rfl
        obtain ⟨isDigits, tail, same, left⟩ := leaves_of_digits digits
        refine ⟨.digits isDigits ?_, tail, same, left⟩
        intro leads
        obtain ⟨d, others, rfl, _⟩ := isDigits.begins
        cases leads
        cases same
        exact zero rfl

theorem leaves_of_fractionPart {fraction : List Char}
    (read : Reader.fractionPart (cs.map some) = some (fraction, rest))
    : IsFraction fraction ∧ Leaves cs fraction rest := by
  unfold Reader.fractionPart at read
  split at read
  next tail same =>
    obtain ⟨cs, rfl, rfl⟩ := eq_cons_of_map_some same
    obtain ⟨ds, isDigits, rfl, leaves⟩ := leaves_of_digits_behind ('.' :: ·) read
    exact ⟨.point isDigits, leaves.cons '.'⟩
  next =>
    cases read
    exact ⟨.nil, cs, rfl, rfl⟩

theorem leaves_of_exponentPart {exponent : List Char}
    (read : Reader.exponentPart (cs.map some) = some (exponent, rest))
    : IsExponent exponent ∧ Leaves cs exponent rest := by
  unfold Reader.exponentPart at read
  split at read
  next e tail same =>
    obtain ⟨cs, rfl, rfl⟩ := eq_cons_of_map_some same
    split at read
    next isLetter =>
      have letter : e = 'e' ∨ e = 'E' := by simpa using isLetter
      split at read
      next tail same =>
        obtain ⟨cs, rfl, rfl⟩ := eq_cons_of_map_some same
        obtain ⟨ds, isDigits, rfl, leaves⟩ := leaves_of_digits_behind (e :: '+' :: ·) read
        exact ⟨.power letter (.inr (.inl rfl)) isDigits, (leaves.cons '+').cons e⟩
      next tail same =>
        obtain ⟨cs, rfl, rfl⟩ := eq_cons_of_map_some same
        obtain ⟨ds, isDigits, rfl, leaves⟩ := leaves_of_digits_behind (e :: '-' :: ·) read
        exact ⟨.power letter (.inr (.inr rfl)) isDigits, (leaves.cons '-').cons e⟩
      next =>
        obtain ⟨ds, isDigits, rfl, leaves⟩ := leaves_of_digits_behind (e :: ·) read
        exact ⟨.power letter (.inl rfl) isDigits, leaves.cons e⟩
    next =>
      cases read
      exact ⟨.nil, e :: cs, rfl, rfl⟩
  next =>
    cases read
    exact ⟨.nil, cs, rfl, rfl⟩

theorem leaves_of_numberBehind {sign : List Char} {json : Json}
    (read : numberBehind sign (cs.map some) = some (json, rest))
    : ∃ whole fraction exponent, IsWhole whole ∧ IsFraction fraction ∧ IsExponent exponent
      ∧ json = .number (sign ++ (whole ++ fraction ++ exponent))
      ∧ Leaves cs (whole ++ fraction ++ exponent) rest := by
  obtain ⟨whole, behind, fraction, left, exponent, first, second, third, rfl⟩ :=
    numberBehind_eq_some_iff.mp read
  obtain ⟨isWhole, cs₁, rfl, rfl⟩ := leaves_of_wholePart first
  obtain ⟨isFraction, cs₂, rfl, rfl⟩ := leaves_of_fractionPart second
  obtain ⟨isExponent, cs₃, rfl, rfl⟩ := leaves_of_exponentPart third
  exact ⟨whole, fraction, exponent, isWhole, isFraction, isExponent,
    by simp only [List.append_assoc], cs₃, by simp only [List.append_assoc], rfl⟩

/-- What the reader takes for a number is one by the grammar, and it is kept as it is spelled; by
cases on whether there is a sign.
-/
theorem leaves_of_number {json : Json} (read : Reader.number (cs.map some) = some (json, rest))
    : ∃ spelling, IsNumber spelling ∧ json = .number spelling ∧ Leaves cs spelling rest := by
  by_cases negative : ∃ tail, cs = '-' :: tail
  · obtain ⟨tail, rfl⟩ := negative
    rw [List.map_cons, number_negative] at read
    obtain ⟨_, _, _, isWhole, isFraction, isExponent, rfl, leaves⟩ := leaves_of_numberBehind read
    exact ⟨_, .negative isWhole isFraction isExponent, rfl, leaves.cons '-'⟩
  · rw [number_positive] at read
    · obtain ⟨_, _, _, isWhole, isFraction, isExponent, rfl, leaves⟩ := leaves_of_numberBehind read
      exact ⟨_, .positive isWhole isFraction isExponent, rfl, leaves⟩
    · intro tail same
      obtain ⟨others, rfl, _⟩ := eq_cons_of_map_some same
      exact negative ⟨others, rfl⟩

/-- The numerals are exactly the numbers of the grammar. -/
theorem isNumeral_iff {spelling : List Char} : IsNumeral spelling ↔ IsNumber spelling := by
  constructor
  · intro numeral
    have read := numeral.reads [] EndsNumber.nil
    rw [List.append_nil] at read
    obtain ⟨other, number, same, _⟩ := leaves_of_number read
    cases same
    exact number
  · exact IsNumber.isNumeral

-----------------------------------------------------------------------------------------
-- Strings
-----------------------------------------------------------------------------------------

/-- What stands behind the opening quote of a string, with its closing quote. -/
inductive IsQuoted : List Char → Prop
  | close : IsQuoted ['"']
  | plain {c : Char} {cs : List Char} (notQuote : c ≠ '"') (notSlash : c ≠ '\\')
    (printable : 0x20 ≤ c.toNat) (behind : IsQuoted cs) : IsQuoted (c :: cs)
  | short {c d : Char} {cs : List Char} (escapes : Reader.shortEscape? c = some d)
    (behind : IsQuoted cs) : IsQuoted ('\\' :: c :: cs)
  | unit {hex cs : List Char} (four : hex.length = 4)
    (all : ∀ c ∈ hex, (Reader.hexDigit? c).isSome) (behind : IsQuoted cs)
    : IsQuoted ('\\' :: 'u' :: (hex ++ cs))

open Reader (stringFrom)

variable {p : Reader.Partial} {s : Option String}

/-- Digits of an escape by number are taken one by one, by induction on the digits. -/
theorem stringFrom_hex {hex : List Char} {n : Nat} (enough : hex.length = n + 1)
    (all : ∀ c ∈ hex, (Reader.hexDigit? c).isSome) (p : Reader.Partial) (value : Nat)
    : ∃ unit, ∀ rest, stringFrom p (.digits (n + 1) value) (hex.map some ++ rest)
      = stringFrom (p.addUnit unit) .outside rest := by
  induction hex generalizing n value with
  | nil => cases enough
  | cons c hex ih =>
      obtain ⟨digit, isDigit⟩ := Option.isSome_iff_exists.mp (all c List.mem_cons_self)
      have others : ∀ c ∈ hex, (Reader.hexDigit? c).isSome :=
        fun other member => all other (List.mem_cons_of_mem c member)
      have step (rest : List Symbol)
          : stringFrom p (.digits (n + 1) value) ((c :: hex).map some ++ rest)
            = if 1 < n + 1 then stringFrom p (.digits n (value * 16 + digit)) (hex.map some ++ rest)
              else stringFrom (p.addUnit (value * 16 + digit)) .outside (hex.map some ++ rest) := by
        rw [List.map_cons, List.cons_append, stringFrom, Option.bind_some, isDigit]
        rfl
      cases n with
      | zero =>
          have last : hex = [] := List.eq_nil_of_length_eq_zero (Nat.succ.inj enough)
          subst last
          exact ⟨value * 16 + digit, fun rest => step rest⟩
      | succ n =>
          obtain ⟨unit, read⟩ := ih (Nat.succ.inj enough) others (value * 16 + digit)
          refine ⟨unit, fun rest => ?_⟩
          rw [step rest, if_pos (by omega), read rest]

/-- What the grammar derives as a string is read as one, by induction on its derivation. -/
theorem IsQuoted.reads (quoted : IsQuoted cs) (p : Reader.Partial)
    : ∃ s, ∀ rest, stringFrom p .outside (cs.map some ++ rest) = some (s, rest) := by
  induction quoted generalizing p with
  | close => exact ⟨p.close, fun rest => rfl⟩
  | @plain c cs notQuote notSlash printable _ ih =>
      obtain ⟨s, read⟩ := ih (p.add c)
      refine ⟨s, fun rest => ?_⟩
      rw [List.map_cons, List.cons_append, stringFrom]
      simp [notQuote, notSlash, Nat.not_lt.mpr printable, read rest]
  | @short c d cs escapes _ ih =>
      obtain ⟨s, read⟩ := ih (p.add d)
      refine ⟨s, fun rest => ?_⟩
      have other : c ≠ 'u' := by
        rintro rfl
        cases escapes
      change stringFrom p .opened (some c :: (cs.map some ++ rest)) = _
      rw [stringFrom]
      simp [other, escapes, read rest]
  | @unit hex cs four all _ ih =>
      obtain ⟨unit, taken⟩ := stringFrom_hex four all p 0
      obtain ⟨s, read⟩ := ih (p.addUnit unit)
      refine ⟨s, fun rest => ?_⟩
      change stringFrom p (.digits 4 0) ((hex ++ cs).map some ++ rest) = _
      rw [List.map_append, List.append_assoc, taken, read]

/-- What completes a string from where its reader stands. -/
def Completes : Reader.Escape → List Char → Prop
  | .outside, cs => IsQuoted cs
  | .opened, cs => IsQuoted ('\\' :: cs)
  | .digits left _, cs =>
    ∃ hex tail, cs = hex ++ tail ∧ hex.length = max left 1
      ∧ (∀ c ∈ hex, (Reader.hexDigit? c).isSome) ∧ IsQuoted tail

/-- What the reader takes for a string is one by the grammar; by induction on the text, wherever
the reader stands.
-/
theorem leaves_of_stringFrom {escape : Reader.Escape}
    (read : stringFrom p escape (cs.map some) = some (s, rest))
    : ∃ used, Completes escape used ∧ Leaves cs used rest := by
  induction cs generalizing p escape with
  | nil => cases escape <;> cases read
  | cons c cs ih =>
      cases escape with
      | outside =>
          change (if _ then _ else _) = _ at read
          split at read
          next quote =>
            cases read
            rw [beq_iff_eq.mp quote]
            exact ⟨['"'], .close, cs, rfl, rfl⟩
          next notQuote =>
            split at read
            next slash =>
              obtain ⟨used, completes, leaves⟩ := ih read
              rw [beq_iff_eq.mp slash]
              exact ⟨'\\' :: used, completes, leaves.cons '\\'⟩
            next notSlash =>
              split at read
              next => cases read
              next printable =>
                obtain ⟨used, completes, leaves⟩ := ih read
                exact ⟨c :: used, .plain (by simpa using notQuote) (by simpa using notSlash)
                  (Nat.not_lt.mp printable) completes, leaves.cons c⟩
      | opened =>
          change (if _ then _ else _) = _ at read
          split at read
          next unit =>
            obtain ⟨used, ⟨hex, tail, rfl, four, all, quoted⟩, leaves⟩ := ih read
            rw [beq_iff_eq.mp unit]
            exact ⟨'u' :: (hex ++ tail), .unit four all quoted, leaves.cons 'u'⟩
          next =>
            split at read
            next d escapes =>
              obtain ⟨used, completes, leaves⟩ := ih read
              exact ⟨c :: used, .short escapes completes, leaves.cons c⟩
            next => cases read
      | digits left value =>
          rw [List.map_cons, stringFrom, Option.bind_some] at read
          split at read
          next => cases read
          next digit isDigit =>
            have first : (Reader.hexDigit? c).isSome = true := Option.isSome_of_eq_some isDigit
            dsimp only at read
            split at read
            next more =>
              obtain ⟨used, ⟨hex, tail, rfl, length, all, quoted⟩, leaves⟩ := ih read
              refine ⟨c :: (hex ++ tail), ⟨c :: hex, tail, rfl, ?_, ?_, quoted⟩, leaves.cons c⟩
              · rw [List.length_cons, length]
                omega
              · exact List.forall_mem_cons.mpr ⟨first, all⟩
            next last =>
              obtain ⟨used, completes, leaves⟩ := ih read
              refine ⟨c :: used, ⟨[c], used, rfl, ?_, ?_, completes⟩, leaves.cons c⟩
              · rw [List.length_singleton]
                omega
              · exact List.forall_mem_singleton.mpr first

/-- A string that is read is one wherever it stands. -/
theorem leaves_of_string (read : Reader.string (cs.map some) = some (s, rest))
    : ∃ used, IsString used s ∧ Leaves cs used rest := by
  obtain ⟨used, quoted, tail, rfl, rfl⟩ := leaves_of_stringFrom read
  obtain ⟨s', again⟩ := quoted.reads ⟨some [], none⟩
  have same : some (s', tail.map some) = some (s, tail.map some) := by
    rw [← again, ← read, List.map_append]
    rfl
  cases same
  exact ⟨used, again, tail, rfl, rfl⟩

/-- The strings are exactly those of the grammar. -/
theorem exists_isString_iff : (∃ s, IsString cs s) ↔ IsQuoted cs := by
  constructor
  · rintro ⟨s, reads⟩
    have read := reads []
    rw [List.append_nil] at read
    obtain ⟨used, quoted, tail, rfl, left⟩ := leaves_of_stringFrom read
    rw [List.map_eq_nil_iff.mp left.symm, List.append_nil]
    exact quoted
  · intro quoted
    exact quoted.reads ⟨some [], none⟩

end DocPipeline.Json
