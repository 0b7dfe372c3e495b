import DocPipeline.Proofs.CommandLine.Grammar
import DocPipeline.Proofs.Except
import Mathlib.Data.List.TakeWhile

/-! Reading a command line. The reader goes from text to text and takes an argument when the next one
is met. It gets through a command line exactly if that says something which can be taken.
-/

namespace DocPipeline.CommandLine

namespace Reading

/-- The argument that waits for its value. -/
def waiting (r : Reading) : Option Argument :=
  match r.pending with
  | some (argument, none) => some argument
  | _ => none

/-- The argument that is taken next, with its value. -/
def due (r : Reading) : Said :=
  match r.pending with
  | some (argument, some s) => [(argument, s)]
  | _ => []

/-- The reader takes what is due and what is said, and another argument waits for its value. -/
def Moves (r : Reading) (said : Said) (waits : Option Argument) (r' : Reading) : Prop :=
  r.waiting = none ∧ ∃ given, Takes r.given (r.due ++ said) given
    ∧ r' = { r with given := given, pending := waits.map (·, none) }

variable {r r' : Reading} {argument : Argument} {s : String} {said : Said}
  {waits : Option Argument}

theorem take_eq_ok_iff
    : r.take argument s = .ok r'
      ↔ ∃ given, Takes r.given [(argument, s)] given ∧ r' = { r with given := given } := by
  unfold take
  constructor
  · intro taken
    split at taken
    · cases taken
    · next fresh =>
        split at taken
        · next value fits =>
            cases taken
            exact ⟨_, .next (by simpa using fresh) fits (.nothing _), rfl⟩
        · cases taken
  · rintro ⟨given, takes, rfl⟩
    cases takes with
    | next fresh fits rest =>
        cases rest
        simp [fresh, fits]

theorem settle_eq_ok_iff : r.settle = .ok r' ↔ r.Moves [] none r' := by
  obtain ⟨given, pending, hasInput, inputOnly⟩ := r
  rcases pending with _ | ⟨argument, _ | s⟩
  · simp only [settle, Moves, waiting, due, List.append_nil, Option.map_none, true_and,
      Except.ok.injEq]
    constructor
    · rintro rfl
      exact ⟨given, .nothing given, rfl⟩
    · rintro ⟨_, ⟨⟩, rfl⟩
      rfl
  · simp [settle, Moves, waiting]
  · simp only [settle, Moves, waiting, due, List.append_nil, Option.map_none, true_and]
    exact take_eq_ok_iff

/-- What is said after everything that is due has been taken. -/
theorem moves_iff
    : r.Moves said waits r'
      ↔ ∃ between, r.settle = .ok between ∧ ∃ given, Takes between.given said given
          ∧ r' = { between with given := given, pending := waits.map (·, none) } := by
  simp only [settle_eq_ok_iff, Moves, List.append_nil]
  constructor
  · rintro ⟨none, given, takes, rfl⟩
    obtain ⟨between, front, back⟩ := takes.split
    exact ⟨_, ⟨none, between, front, rfl⟩, given, back, rfl⟩
  · rintro ⟨_, ⟨none, between, front, rfl⟩, given, back, rfl⟩
    exact ⟨none, given, front.append back, rfl⟩

/-- An argument that is said with its value is taken after everything that is due. -/
theorem moves_single_iff
    : r.Moves [(argument, s)] none r'
      ↔ ∃ between, r.settle = .ok between ∧ between.take argument s = .ok r' := by
  rw [moves_iff]
  refine exists_congr fun between => and_congr_right fun settled => ?_
  have free : between.pending = none := by
    obtain ⟨_, _, _, rfl⟩ := settle_eq_ok_iff.mp settled
    rfl
  rw [take_eq_ok_iff, Option.map_none, ← free]

/-- An argument that is said without its value waits for it. -/
theorem moves_nil_iff
    : r.Moves [] (some argument) r'
      ↔ ∃ between, r.settle = .ok between
          ∧ r' = { between with pending := some (argument, none) } := by
  rw [moves_iff]
  refine exists_congr fun between => and_congr_right fun _ => ?_
  constructor
  · rintro ⟨_, ⟨⟩, rfl⟩
    rfl
  · rintro rfl
    exact ⟨between.given, .nothing _, rfl⟩

theorem flag_eq_ok_iff (flag : argument.shape = .flag)
    : r.flag argument = .ok r' ↔ argument.IsFlag ∧ r.Moves [(argument, "true")] none r' := by
  rw [moves_single_iff, Reading.flag, Except.bind_eq_ok_iff]
  constructor
  · rintro ⟨between, settled, taken⟩
    split at taken
    · cases taken
    · cases taken
    · next notHelp notVersion => exact ⟨⟨flag, notHelp, notVersion⟩, between, settled, taken⟩
  · rintro ⟨⟨_, notHelp, notVersion⟩, between, settled, taken⟩
    refine ⟨between, settled, ?_⟩
    split
    · exact absurd rfl notHelp
    · exact absurd rfl notVersion
    · exact taken

theorem withValue_some_eq_ok_iff
    : r.withValue argument (some s) = .ok r' ↔ r.Moves [(argument, s)] none r' := by
  rw [moves_single_iff, withValue, Except.bind_eq_ok_iff]

theorem withValue_none_eq_ok_iff
    : r.withValue argument none = .ok r' ↔ r.Moves [] (some argument) r' := by
  rw [moves_nil_iff, withValue, Except.bind_eq_ok_iff]
  refine exists_congr fun between => and_congr_right fun _ => ?_
  exact ⟨fun same => (Except.ok.inj same).symm, fun same => congrArg Except.ok same.symm⟩

/-- What is said in two parts is taken in two parts. -/
theorem moves_append_iff {more : Said}
    : r.Moves (said ++ more) waits r'
      ↔ ∃ between, r.Moves said none between ∧ between.Moves more waits r' := by
  constructor
  · rintro ⟨free, given, takes, rfl⟩
    rw [← List.append_assoc] at takes
    obtain ⟨between, front, back⟩ := takes.split
    exact ⟨_, ⟨free, between, front, rfl⟩, rfl, given, back, rfl⟩
  · rintro ⟨_, ⟨free, between, front, rfl⟩, _, given, back, rfl⟩
    refine ⟨free, given, ?_, rfl⟩
    rw [← List.append_assoc]
    exact front.append back

-----------------------------------------------------------------------------------------
-- Reading single texts
-----------------------------------------------------------------------------------------

theorem attachedTo_cons {d : Char} {value : List Char} (other : d ≠ '=')
    : attachedTo (d :: value) = some (String.ofList (d :: value)) := by
  unfold attachedTo
  split
  · next empty => cases empty
  · next same => exact absurd (List.cons.inj same).1 other
  · rfl

/-- Behind the letter of an argument with a value stands the value, with an equals sign or without
one, or else the argument waits for it; by cases on what stands there.
-/
theorem withValue_attachedTo_eq_ok_iff {c : Char} {cs : List Char}
    (found : Argument.ofShortName? c = some argument) (takes : argument.TakesValue)
    : r.withValue argument (attachedTo cs) = .ok r'
      ↔ ∃ said waits, Letters (c :: cs) said waits ∧ r.Moves said waits r' := by
  have named := Argument.ofShortName?_eq_some_iff.mp found
  have only {other : Argument} (same : other.shortName? = some c) : other = argument :=
    Argument.eq_of_shortName? found same
  constructor
  · intro read
    cases cs with
    | nil => exact ⟨_, _, .apart named takes, withValue_none_eq_ok_iff.mp read⟩
    | cons d value =>
        by_cases equals : d = '='
        · subst equals
          exact ⟨_, _, .equals named takes, withValue_some_eq_ok_iff.mp read⟩
        · rw [attachedTo_cons equals] at read
          exact ⟨_, _, .attached named takes equals, withValue_some_eq_ok_iff.mp read⟩
  · rintro ⟨_, _, letters, moves⟩
    cases letters with
    | flag same isFlag _ =>
        obtain rfl := only same
        exact absurd isFlag.1 takes.1
    | apart same _ =>
        obtain rfl := only same
        exact withValue_none_eq_ok_iff.mpr moves
    | attached same _ other =>
        obtain rfl := only same
        rw [attachedTo_cons other]
        exact withValue_some_eq_ok_iff.mpr moves
    | equals same _ =>
        obtain rfl := only same
        exact withValue_some_eq_ok_iff.mpr moves

/-- Letters are read as they stand, by induction on them. -/
theorem short_eq_ok_iff {cs : List Char} (settled : cs = [] → r.pending = none)
    : r.short cs = .ok r'
      ↔ ∃ said waits, Letters cs said waits ∧ r.Moves said waits r' := by
  induction cs generalizing r with
  | nil =>
      have stays : r.settle = .ok r := by rw [settle, settled rfl]
      constructor
      · intro read
        obtain rfl := Except.ok.inj read
        exact ⟨[], none, .nothing, settle_eq_ok_iff.mp stays⟩
      · rintro ⟨_, _, ⟨⟩, moves⟩
        exact stays.symm.trans (settle_eq_ok_iff.mpr moves)
  | cons c cs ih =>
      rw [short]
      cases found : Argument.ofShortName? c with
      | none =>
          refine ⟨nofun, ?_⟩
          rintro ⟨_, _, letters, _⟩
          have named : ∃ argument, Argument.shortName? argument = some c := by
            cases letters <;> exact ⟨_, ‹_›⟩
          obtain ⟨argument, named⟩ := named
          rw [Argument.ofShortName?_eq_some_iff.mpr named] at found
          cases found
      | some argument =>
          have named := Argument.ofShortName?_eq_some_iff.mp found
          dsimp only
          by_cases flag : argument.shape = .flag
          · rw [if_pos flag, Except.bind_eq_ok_iff]
            have free {between} (moves : r.Moves [(argument, "true")] none between)
                : cs = [] → between.pending = none := by
              obtain ⟨_, _, _, rfl⟩ := moves
              exact fun _ => rfl
            constructor
            · rintro ⟨between, first, rest⟩
              obtain ⟨isFlag, moves⟩ := (flag_eq_ok_iff flag).mp first
              obtain ⟨said, waits, letters, more⟩ := (ih (free moves)).mp rest
              exact ⟨_, waits, .flag named isFlag letters,
                moves_append_iff.mpr ⟨between, moves, more⟩⟩
            · rintro ⟨_, waits, letters, moves⟩
              obtain ⟨isFlag, said, rfl, others⟩ := letters.of_flag found flag
              obtain ⟨between, first, more⟩ := moves_append_iff.mp moves
              exact ⟨between, (flag_eq_ok_iff flag).mpr ⟨isFlag, first⟩,
                (ih (free first)).mpr ⟨said, waits, others, more⟩⟩
          · rw [if_neg flag]
            exact withValue_attachedTo_eq_ok_iff found ⟨flag, by rintro rfl; cases named⟩

/-- A name is read up to its end, since no name has an equals sign in it. -/
theorem long_longName (named : argument ≠ .input)
    : r.long argument.longName.toList
      = if argument.shape = .flag then r.flag argument else r.withValue argument none := by
  have whole := argument.longName_ne_equals
  have found := Argument.ofLongName?_eq_some_iff.mpr ⟨named, rfl⟩
  simp only [long, List.takeWhile_eq_self_iff.mpr whole, List.dropWhile_eq_nil_iff.mpr whole,
    String.ofList_toList, found]

theorem long_longName_equals (named : argument ≠ .input) (value : List Char)
    : r.long (argument.longName.toList ++ '=' :: value)
      = if argument.shape = .flag then .error (.fault (.needless argument (String.ofList value)))
        else r.withValue argument (some (String.ofList value)) := by
  have whole := argument.longName_ne_equals
  have found := Argument.ofLongName?_eq_some_iff.mpr ⟨named, rfl⟩
  have name : (argument.longName.toList ++ '=' :: value).takeWhile (· != '=')
      = argument.longName.toList := by
    rw [List.takeWhile_append_of_pos whole]
    simp
  have behind : (argument.longName.toList ++ '=' :: value).dropWhile (· != '=')
      = '=' :: value := by
    rw [List.dropWhile_append_of_pos whole]
    simp
  simp only [long, name, behind, String.ofList_toList, found]

/-- What stands behind two dashes is read only if it is a name, or one with a value. -/
theorem exists_of_long {cs : List Char} (read : r.long cs = .ok r')
    : ∃ argument : Argument, argument ≠ .input
        ∧ (cs = argument.longName.toList
          ∨ ∃ value, cs = argument.longName.toList ++ '=' :: value) := by
  cases found : Argument.ofLongName? (String.ofList (cs.takeWhile (· != '='))) with
  | none =>
      simp only [long, found] at read
      cases read
  | some argument =>
      obtain ⟨named, name⟩ := Argument.ofLongName?_eq_some_iff.mp found
      have front : argument.longName.toList = cs.takeWhile (· != '=') := by
        rw [name, String.toList_ofList]
      have whole : cs.takeWhile (· != '=') ++ cs.dropWhile (· != '=') = cs :=
        List.takeWhile_append_dropWhile
      rw [← front] at whole
      refine ⟨argument, named, ?_⟩
      cases behind : cs.dropWhile (· != '=') with
      | nil =>
          rw [behind, List.append_nil] at whole
          exact .inl whole.symm
      | cons d value =>
          have equals : d = '=' := by
            have some : cs.dropWhile (· != '=') ≠ [] := by simp [behind]
            simpa [behind] using List.head_dropWhile_not (· != '=') some
          rw [behind, equals] at whole
          exact .inr ⟨value, whole.symm⟩

/-- What stands behind two dashes is read as it is spelled, by cases on what that is. -/
theorem long_eq_ok_iff {cs : List Char}
    : r.long cs = .ok r'
      ↔ ∃ said waits, Spells ("--" ++ String.ofList cs) said waits ∧ r.Moves said waits r' := by
  constructor
  · intro read
    obtain ⟨argument, named, rfl | ⟨value, rfl⟩⟩ := exists_of_long read
    · rw [long_longName named] at read
      rw [String.ofList_toList]
      split at read
      · next flag =>
          obtain ⟨isFlag, moves⟩ := (flag_eq_ok_iff flag).mp read
          exact ⟨_, _, .flag isFlag, moves⟩
      · next other =>
          exact ⟨_, _, .apart ⟨other, named⟩, withValue_none_eq_ok_iff.mp read⟩
    · rw [long_longName_equals named] at read
      split at read
      · cases read
      · next other =>
          have spelled : "--" ++ String.ofList (argument.longName.toList ++ '=' :: value)
              = "--" ++ argument.longName ++ "=" ++ String.ofList value := by
            rw [← String.toList_inj]
            simp
          rw [spelled]
          exact ⟨_, _, .attached ⟨other, named⟩, withValue_some_eq_ok_iff.mp read⟩
  · rintro ⟨said, waits, spells, moves⟩
    generalize spelled : "--" ++ String.ofList cs = text at spells
    rw [← String.toList_inj] at spelled
    cases spells with
    | @flag argument flag =>
        obtain rfl : cs = argument.longName.toList := by simpa using spelled
        rw [long_longName flag.ne_input, if_pos flag.1]
        exact (flag_eq_ok_iff flag.1).mpr ⟨flag, moves⟩
    | @apart argument takes =>
        obtain rfl : cs = argument.longName.toList := by simpa using spelled
        rw [long_longName takes.2, if_neg takes.1]
        exact withValue_none_eq_ok_iff.mpr moves
    | @attached argument value takes =>
        obtain rfl : cs = argument.longName.toList ++ '=' :: value.toList := by
          simpa using spelled
        rw [long_longName_equals takes.2, if_neg takes.1, String.ofList_toList]
        exact withValue_some_eq_ok_iff.mpr moves
    | @letters c rest said waits letters =>
        have dash : c = '-' := by
          simp only [String.toList_append, String.toList_ofList] at spelled
          exact (List.cons.inj (List.cons.inj spelled).2).1.symm
        exact absurd dash letters.ne_dash

/-- A text that begins with a dash, and is more than one or two, is read as it is spelled. -/
theorem next_eq_ok_iff {text : String} (early : r.inputOnly = false) (dashed : ¬ IsPlain text)
    (longer : text ≠ "--")
    : r.next text = .ok r' ↔ ∃ said waits, Spells text said waits ∧ r.Moves said waits r' := by
  obtain ⟨c, d, rest, rfl, rfl⟩ : ∃ c d rest, c = '-' ∧ text = String.ofList (c :: d :: rest) := by
    rw [IsPlain, not_or, not_not] at dashed
    obtain ⟨alone, begins⟩ := dashed
    match spelled : text.toList with
    | [] => simp [spelled] at begins
    | [c] =>
        obtain rfl : c = '-' := by simpa [spelled] using begins
        exact absurd (String.toList_inj.mp spelled) alone
    | c :: d :: rest =>
        obtain rfl : c = '-' := by simpa [spelled] using begins
        exact ⟨_, d, rest, rfl, by rw [← spelled, String.ofList_toList]⟩
  simp only [next, early, String.toList_ofList, Bool.false_eq_true, if_false]
  by_cases dash : d = '-'
  · subst dash
    have some : rest ≠ [] := by
      rintro rfl
      exact longer rfl
    have spelled : String.ofList ('-' :: '-' :: rest) = "--" ++ String.ofList rest := by
      rw [← String.toList_inj]
      simp
    rw [spelled, ← long_eq_ok_iff]
    match rest, some with
    | _ :: _, _ => rfl
  · have spelled : String.ofList ('-' :: d :: rest) = "-" ++ String.ofList (d :: rest) := by
      rw [← String.toList_inj]
      simp
    have reads : r.short (d :: rest) = .ok r' ↔ _ := short_eq_ok_iff nofun
    rw [spelled]
    simp only [spells_letters_iff dash]
    rw [← reads]
    split
    · next same => exact absurd (List.cons.inj (List.cons.inj same).2).1 dash
    · next same => exact absurd (List.cons.inj (List.cons.inj same).2).1 dash
    · next same => cases (List.cons.inj same).2
    · next same =>
        rw [← (List.cons.inj same).2]
    · next others => exact absurd rfl (others _)

theorem next_of_isPlain {text : String} (early : r.inputOnly = false) (plain : IsPlain text)
    : r.next text = r.plain text := by
  rcases plain with rfl | begins
  · simp [next, early]
  · simp only [next, early, Bool.false_eq_true, if_false]
    split
    · next spelled => simp [spelled] at begins
    · next spelled => simp [spelled] at begins
    · next spelled => simp [spelled] at begins
    · next spelled => simp [spelled] at begins
    · rfl

theorem next_dashes (early : r.inputOnly = false)
    : r.next "--" = .ok { r with inputOnly := true } := by
  simp [next, early]

theorem positional_eq_ok_iff
    : r.positional s = .ok r'
      ↔ r.hasInput = false ∧ ∃ between, r.Moves [] none between
          ∧ r' = { between with pending := some (.input, some s), hasInput := true } := by
  unfold positional
  cases r.hasInput with
  | true => exact ⟨nofun, nofun⟩
  | false =>
      simp only [Bool.false_eq_true, if_false, true_and, ← settle_eq_ok_iff]
      rw [Except.bind_eq_ok_iff]
      refine exists_congr fun between => and_congr_right fun _ => ?_
      exact ⟨fun same => (Except.ok.inj same).symm, fun same => congrArg Except.ok same.symm⟩

-----------------------------------------------------------------------------------------
-- Reading whole command lines
-----------------------------------------------------------------------------------------

/-- Reads texts one after the other, and takes what is left. -/
def through (r : Reading) (args : List String) : Except Stop Reading := do
  let r ← args.foldlM next r
  r.settle

/-- The reader gets through these texts, and has then been given these arguments. -/
def Gives (r : Reading) (args : List String) (given : Given) : Prop :=
  ∃ last, r.through args = .ok last ∧ last.given = given

/-- The reader that has seen an input has taken it or is about to. -/
def KeepsInput (r : Reading) : Prop :=
  r.hasInput = true → .input ∈ r.given.map Prod.fst ++ r.due.map Prod.fst

variable {args : List String} {given : Given}

theorem gives_nil_iff : r.Gives [] given ↔ r.waiting = none ∧ Takes r.given r.due given := by
  have ends : r.through [] = r.settle := rfl
  simp only [Gives, ends, settle_eq_ok_iff, Moves, List.append_nil]
  constructor
  · rintro ⟨_, ⟨free, given, takes, rfl⟩, rfl⟩
    exact ⟨free, takes⟩
  · rintro ⟨free, takes⟩
    exact ⟨_, ⟨free, given, takes, rfl⟩, rfl⟩

theorem gives_cons_iff {text : String}
    : r.Gives (text :: args) given
      ↔ ∃ between, r.next text = .ok between ∧ between.Gives args given := by
  have goes : r.through (text :: args) = (r.next text >>= fun r => r.through args) := by
    simp only [through, List.foldlM_cons, bind_assoc]
  simp only [Gives, goes, Except.bind_eq_ok_iff]
  constructor
  · rintro ⟨last, ⟨between, first, rest⟩, same⟩
    exact ⟨between, first, last, rest, same⟩
  · rintro ⟨between, first, last, rest, same⟩
    exact ⟨last, ⟨between, first, rest⟩, same⟩

/-- What the reader takes, it has taken afterwards. -/
theorem KeepsInput.moves (keeps : r.KeepsInput) (moves : r.Moves said waits r')
    : r'.KeepsInput := by
  obtain ⟨_, given, takes, rfl⟩ := moves
  intro seen
  rw [takes.keys]
  have kept := keeps seen
  simp only [List.map_append, List.mem_append] at kept ⊢
  tauto

/-- An input that is still taken is the first one. -/
theorem KeepsInput.hasInput_eq_false {more : Said} (keeps : r.KeepsInput)
    (takes : Takes r.given (r.due ++ (.input, s) :: more) given) : r.hasInput = false := by
  obtain ⟨between, front, back⟩ := takes.split
  cases back with
  | next fresh _ _ =>
      rw [Given.value?_eq_none_iff, front.keys] at fresh
      exact Bool.eq_false_iff.mpr fun seen => fresh (keeps seen)

/-- Behind the input the reader goes on as before. -/
theorem of_positional (read : r.positional s = .ok r')
    : r'.waiting = none ∧ r'.KeepsInput ∧ r'.inputOnly = r.inputOnly := by
  obtain ⟨_, between, ⟨_, _, _, rfl⟩, rfl⟩ := positional_eq_ok_iff.mp read
  exact ⟨rfl, fun _ => by simp [due], rfl⟩

/-- The input is taken in its place, if there was none before. -/
theorem exists_positional_iff {more : Said} (keeps : r.KeepsInput)
    : (∃ between, r.positional s = .ok between
        ∧ Takes between.given (between.due ++ more) given)
      ↔ r.waiting = none ∧ Takes r.given (r.due ++ (.input, s) :: more) given := by
  simp only [positional_eq_ok_iff, Moves, List.append_nil]
  constructor
  · rintro ⟨_, ⟨_, _, ⟨free, between, front, rfl⟩, rfl⟩, back⟩
    exact ⟨free, front.append back⟩
  · rintro ⟨free, takes⟩
    have first := keeps.hasInput_eq_false takes
    obtain ⟨between, front, back⟩ := takes.split
    exact ⟨_, ⟨first, _, ⟨free, between, front, rfl⟩, rfl⟩, back⟩

/-- Where everything is input, each text is; by induction on the texts. -/
theorem gives_inputs_iff (only : r.inputOnly = true) (keeps : r.KeepsInput)
    : r.Gives args given
      ↔ r.waiting = none ∧ Takes r.given (r.due ++ args.map ((.input, ·))) given := by
  induction args generalizing r with
  | nil => simp [gives_nil_iff]
  | cons text args ih =>
      have reads : r.next text = r.positional text := if_pos only
      rw [gives_cons_iff, reads, List.map_cons, ← exists_positional_iff keeps]
      refine exists_congr fun between => and_congr_right fun read => ?_
      obtain ⟨free, kept, same⟩ := of_positional read
      rw [ih (same.trans only) kept]
      exact and_iff_right free

theorem plain_of_free (free : r.waiting = none) (text : String)
    : r.plain text = r.positional text := by
  obtain ⟨_, pending, _, _⟩ := r
  rcases pending with _ | ⟨argument, _ | s⟩
  · rfl
  · cases free
  · rfl

theorem plain_of_waiting (waits : r.waiting = some argument) (text : String)
    : r.plain text = .ok { r with pending := some (argument, some text) } := by
  obtain ⟨_, pending, _, _⟩ := r
  rcases pending with _ | ⟨other, _ | s⟩ <;> cases waits
  rfl

/-- Nothing is due while an argument waits, so its value only adds to what is. -/
theorem KeepsInput.answered (keeps : r.KeepsInput) (waits : r.waiting = some argument)
    : ({ r with pending := some (argument, some s) } : Reading).KeepsInput := by
  obtain ⟨_, pending, _, _⟩ := r
  rcases pending with _ | ⟨other, _ | s⟩ <;> cases waits
  exact fun seen => List.mem_append_left _ (by simpa [due] using keeps seen)

/-- What a command line says is read, by induction on what it says. -/
theorem gives_of_said (told : Says args said) (early : r.inputOnly = false)
    (keeps : r.KeepsInput) (free : r.waiting = none)
    (takes : Takes r.given (r.due ++ said) given) : r.Gives args given := by
  induction told generalizing r with
  | nothing => exact gives_nil_iff.mpr ⟨free, by simpa using takes⟩
  | @word text args said more spells rest ih =>
      rw [← List.append_assoc] at takes
      obtain ⟨between, front, back⟩ := takes.split
      have moves : r.Moves said none _ := ⟨free, between, front, rfl⟩
      have read := (next_eq_ok_iff early spells.dashed spells.longer).mpr ⟨_, _, spells, moves⟩
      exact gives_cons_iff.mpr ⟨_, read, ih early (keeps.moves moves) rfl back⟩
  | @pair text value args said argument more spells plain rest ih =>
      rw [← List.append_assoc] at takes
      obtain ⟨between, front, back⟩ := takes.split
      have moves : r.Moves said (some argument) _ := ⟨free, between, front, rfl⟩
      have read := (next_eq_ok_iff early spells.dashed spells.longer).mpr ⟨_, _, spells, moves⟩
      let answered : Reading := { r with given := between, pending := some (argument, some value) }
      have kept : answered.KeepsInput := (keeps.moves moves).answered rfl
      have gives : answered.Gives args given := ih early kept rfl back
      exact gives_cons_iff.mpr
        ⟨_, read, gives_cons_iff.mpr ⟨answered, next_of_isPlain early plain, gives⟩⟩
  | @input text args more plain rest ih =>
      obtain ⟨between, read, back⟩ := (exists_positional_iff keeps).mpr ⟨free, takes⟩
      obtain ⟨stays, kept, same⟩ := of_positional read
      rw [gives_cons_iff, next_of_isPlain early plain, plain_of_free free]
      exact ⟨between, read, ih (same.trans early) kept stays back⟩
  | inputs args =>
      have only : ({ r with inputOnly := true } : Reading).inputOnly = true := rfl
      rw [gives_cons_iff, next_dashes early]
      exact ⟨_, rfl, (gives_inputs_iff only keeps).mpr ⟨free, takes⟩⟩

/-- What is read is said, by induction on the texts; an argument that waits is said with the next of
them.
-/
theorem exists_said_of_gives (early : r.inputOnly = false) (keeps : r.KeepsInput)
    (gives : r.Gives args given)
    : match r.waiting with
      | none => ∃ said, Says args said ∧ Takes r.given (r.due ++ said) given
      | some argument => ∃ value rest said, args = value :: rest ∧ IsPlain value ∧ Says rest said
          ∧ Takes r.given ((argument, value) :: said) given := by
  induction args generalizing r with
  | nil =>
      obtain ⟨free, takes⟩ := gives_nil_iff.mp gives
      rw [free]
      exact ⟨[], .nothing, by simpa using takes⟩
  | cons text args ih =>
      obtain ⟨between, read, gives⟩ := gives_cons_iff.mp gives
      by_cases dashes : text = "--"
      · subst dashes
        have only : ({ r with inputOnly := true } : Reading).inputOnly = true := rfl
        rw [next_dashes early] at read
        obtain rfl := Except.ok.inj read
        obtain ⟨free, takes⟩ := (gives_inputs_iff only keeps).mp gives
        have free : r.waiting = none := free
        rw [free]
        exact ⟨_, .inputs args, takes⟩
      by_cases plain : IsPlain text
      · rw [next_of_isPlain early plain] at read
        cases waits : r.waiting with
        | none =>
            rw [plain_of_free waits] at read
            obtain ⟨free, kept, same⟩ := of_positional read
            have later := ih (same.trans early) kept gives
            rw [free] at later
            obtain ⟨more, told, takes⟩ := later
            exact ⟨_, .input plain told,
              ((exists_positional_iff keeps).mp ⟨between, read, takes⟩).2⟩
        | some argument =>
            rw [plain_of_waiting waits] at read
            have still : between.inputOnly = false := Except.ok.inj read ▸ early
            have kept : between.KeepsInput := Except.ok.inj read ▸ keeps.answered waits
            have later := ih still kept gives
            obtain rfl := Except.ok.inj read
            obtain ⟨more, told, takes⟩ := later
            exact ⟨text, args, more, rfl, plain, told, takes⟩
      · obtain ⟨said, waits, spells, moves⟩ := (next_eq_ok_iff early plain dashes).mp read
        have kept := keeps.moves moves
        obtain ⟨free, taken, front, rfl⟩ := moves
        let between : Reading := { r with given := taken, pending := waits.map (·, none) }
        have still : between.inputOnly = false := early
        have later := ih still kept gives
        rw [free]
        cases waits with
        | none =>
            obtain ⟨more, told, back⟩ := later
            refine ⟨said ++ more, .word spells told, ?_⟩
            rw [← List.append_assoc]
            exact front.append back
        | some argument =>
            obtain ⟨value, rest, more, rfl, isPlain, told, back⟩ := later
            refine ⟨said ++ (argument, value) :: more, .pair spells isPlain told, ?_⟩
            rw [← List.append_assoc]
            exact front.append back

/-- From its start the reader gets through exactly what says something that can be taken. -/
theorem gives_start_iff
    : start.Gives args given ↔ ∃ said, Says args said ∧ Takes [] said given := by
  have keeps : start.KeepsInput := nofun
  constructor
  · exact exists_said_of_gives rfl keeps
  · rintro ⟨said, told, takes⟩
    exact gives_of_said told rfl keeps rfl takes

end Reading

end DocPipeline.CommandLine
