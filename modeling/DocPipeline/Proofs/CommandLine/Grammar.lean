import DocPipeline.CommandLine.Options
import Mathlib.Data.List.Nodup

/-! What a command line says. Each text on it says some arguments by itself, or leaves one waiting
for the text behind it, and what begins with no dash is the input. What is said can be taken if each
argument is said once and with a value that fits.
-/

namespace DocPipeline.CommandLine

/-- Arguments with the texts of their values. -/
abbrev Said := List (Argument × String)

-----------------------------------------------------------------------------------------
-- The texts of a command line
-----------------------------------------------------------------------------------------

namespace Argument

/-- Naming the argument is enough, and does not end the command. -/
def IsFlag (argument : Argument) : Prop :=
  argument.shape = .flag ∧ argument ≠ .help ∧ argument ≠ .version

/-- The argument has a name and a value. -/
def TakesValue (argument : Argument) : Prop :=
  argument.shape ≠ .flag ∧ argument ≠ .input

end Argument

/-- What letters say, and the argument that waits for its value behind them. -/
inductive Letters : List Char → Said → Option Argument → Prop
  | nothing : Letters [] [] none
  | flag {c argument cs said waiting} (named : argument.shortName? = some c)
    (flag : argument.IsFlag) (rest : Letters cs said waiting)
    : Letters (c :: cs) ((argument, "true") :: said) waiting
  | apart {c argument} (named : argument.shortName? = some c) (takes : argument.TakesValue)
    : Letters [c] [] (some argument)
  | attached {c d argument value} (named : argument.shortName? = some c)
    (takes : argument.TakesValue) (other : d ≠ '=')
    : Letters (c :: d :: value) [(argument, String.ofList (d :: value))] none
  | equals {c argument value} (named : argument.shortName? = some c)
    (takes : argument.TakesValue)
    : Letters (c :: '=' :: value) [(argument, String.ofList value)] none

/-- What a text says that begins with a dash, and the argument that waits for its value. -/
inductive Spells : String → Said → Option Argument → Prop
  | flag {argument} (flag : argument.IsFlag)
    : Spells ("--" ++ argument.longName) [(argument, "true")] none
  | apart {argument} (takes : argument.TakesValue)
    : Spells ("--" ++ argument.longName) [] (some argument)
  | attached {argument value} (takes : argument.TakesValue)
    : Spells ("--" ++ argument.longName ++ "=" ++ value) [(argument, value)] none
  | letters {c cs said waiting} (letters : Letters (c :: cs) said waiting)
    : Spells ("-" ++ String.ofList (c :: cs)) said waiting

/-- A text that is a value or the input: it begins with no dash, or is one. -/
def IsPlain (text : String) : Prop :=
  text = "-" ∨ text.toList.head? ≠ some '-'

/-- What a command line says, from left to right. -/
inductive Says : List String → Said → Prop
  | nothing : Says [] []
  | word {text args said more} (spells : Spells text said none) (rest : Says args more)
    : Says (text :: args) (said ++ more)
  | pair {text value args said argument more} (spells : Spells text said (some argument))
    (plain : IsPlain value) (rest : Says args more)
    : Says (text :: value :: args) (said ++ (argument, value) :: more)
  | input {text args more} (plain : IsPlain text) (rest : Says args more)
    : Says (text :: args) ((.input, text) :: more)
  | inputs (args : List String) : Says ("--" :: args) (args.map ((.input, ·)))

-----------------------------------------------------------------------------------------
-- Names
-----------------------------------------------------------------------------------------

namespace Argument

theorem ofLongName?_eq_some_iff {name : String} {argument : Argument}
    : ofLongName? name = some argument ↔ argument ≠ .input ∧ argument.longName = name := by
  constructor
  · intro found
    simpa [ofLongName?] using List.find?_some found
  · rintro ⟨named, rfl⟩
    revert named
    cases argument <;> decide

theorem ofShortName?_eq_some_iff {c : Char} {argument : Argument}
    : ofShortName? c = some argument ↔ argument.shortName? = some c := by
  constructor
  · intro found
    simpa [ofShortName?] using List.find?_some found
  · intro named
    cases argument <;> cases named <;> decide

/-- A letter names one argument. -/
theorem eq_of_shortName? {c : Char} {argument other : Argument}
    (found : ofShortName? c = some argument) (same : other.shortName? = some c)
    : other = argument := by
  rw [ofShortName?_eq_some_iff.mpr same] at found
  exact Option.some.inj found

/-- No name has an equals sign in it. -/
theorem longName_ne_equals (argument : Argument)
    : ∀ c ∈ argument.longName.toList, (c != '=') = true := by
  have absent : '=' ∉ argument.longName.toList := by cases argument <;> decide
  intro c member
  simpa using fun same : c = '=' => absent (same ▸ member)

theorem IsFlag.ne_input {argument : Argument} (flag : argument.IsFlag) : argument ≠ .input := by
  rintro rfl
  cases flag.1

theorem longName_ne_empty {argument : Argument} (named : argument ≠ .input)
    : argument.longName ≠ "" := by
  revert named
  cases argument <;> decide

theorem dash_ne_shortName {argument : Argument} : argument.shortName? ≠ some '-' := by
  cases argument <;> decide

end Argument

/-- Behind the letter of a flag stand other letters. -/
theorem Letters.of_flag {c : Char} {cs : List Char} {said : Said}
    {waits : Option Argument} {argument : Argument} (letters : Letters (c :: cs) said waits)
    (found : Argument.ofShortName? c = some argument) (flag : argument.shape = .flag)
    : argument.IsFlag ∧ ∃ more, said = [(argument, "true")] ++ more ∧ Letters cs more waits := by
  have only {other : Argument} (same : other.shortName? = some c) : other = argument :=
    Argument.eq_of_shortName? found same
  cases letters with
  | flag same isFlag rest =>
      obtain rfl := only same
      exact ⟨isFlag, _, rfl, rest⟩
  | apart same takes | attached same takes _ | equals same takes =>
      obtain rfl := only same
      exact absurd flag takes.1

theorem Letters.ne_dash {c : Char} {cs : List Char} {said : Said}
    {waits : Option Argument} (letters : Letters (c :: cs) said waits) : c ≠ '-' := by
  rintro rfl
  cases letters <;> exact Argument.dash_ne_shortName ‹_›

/-- Behind a single dash stand letters. -/
theorem spells_letters_iff {c : Char} {cs : List Char} {said : Said} {waits : Option Argument}
    (other : c ≠ '-')
    : Spells ("-" ++ String.ofList (c :: cs)) said waits ↔ Letters (c :: cs) said waits := by
  refine ⟨fun spells => ?_, .letters⟩
  generalize spelled : "-" ++ String.ofList (c :: cs) = text at spells
  rw [← String.toList_inj] at spelled
  simp only [String.toList_append, String.toList_ofList] at spelled
  cases spells with
  | flag | apart | attached =>
      simp only [String.toList_append] at spelled
      exact absurd (List.cons.inj (List.cons.inj spelled).2).1 other
  | letters letters =>
      simp only [String.toList_append, String.toList_ofList] at spelled
      obtain ⟨rfl, rfl⟩ := List.cons.inj (List.cons.inj spelled).2
      exact letters

theorem Spells.toList {text : String} {said : Said} {waits : Option Argument}
    (spells : Spells text said waits) : ∃ c cs, text.toList = '-' :: c :: cs := by
  cases spells <;> simp

theorem Spells.dashed {text : String} {said : Said} {waits : Option Argument}
    (spells : Spells text said waits) : ¬ IsPlain text := by
  obtain ⟨c, cs, spelled⟩ := spells.toList
  rintro (rfl | begins)
  · cases spelled
  · exact begins (by rw [spelled]; rfl)

theorem Spells.longer {text : String} {said : Said} {waits : Option Argument}
    (spells : Spells text said waits) : text ≠ "--" := by
  intro same
  rw [← String.toList_inj] at same
  cases spells with
  | flag flag =>
      have named : Argument.longName _ ≠ "" := Argument.longName_ne_empty flag.ne_input
      simp [named] at same
  | apart takes | attached takes => simp [Argument.longName_ne_empty takes.2] at same
  | letters letters =>
      simp only [String.toList_append, String.toList_ofList] at same
      exact letters.ne_dash (List.cons.inj (List.cons.inj same).2).1

-----------------------------------------------------------------------------------------
-- Taking arguments
-----------------------------------------------------------------------------------------

/-- Arguments are taken one after the other, each for the first time and with a value that fits. -/
inductive Takes : Given → Said → Given → Prop
  | nothing (given) : Takes given [] given
  | next {given argument s value said after} (fresh : given.value? argument = none)
    (fits : Value.ofText argument s = .ok value)
    (rest : Takes (given ++ [(argument, value)]) said after)
    : Takes given ((argument, s) :: said) after

theorem Given.value?_eq_none_iff {given : Given} {argument : Argument}
    : given.value? argument = none ↔ argument ∉ given.map Prod.fst := by
  simp only [Given.value?, Option.map_eq_none_iff, List.find?_eq_none, decide_eq_true_eq,
    List.mem_map, not_exists, not_and]

theorem Given.value?_append (given more : Given) (argument : Argument)
    : Given.value? (given ++ more) argument
      = (given.value? argument).or (Given.value? more argument) := by
  simp [Given.value?, List.find?_append, Option.map_or]

namespace Takes

variable {given between after : Given} {first second said : Said}

theorem append (front : Takes given first between) (back : Takes between second after)
    : Takes given (first ++ second) after := by
  induction front with
  | nothing => exact back
  | next fresh fits _ ih => exact .next fresh fits (ih back)

/-- What is taken can be parted anywhere, by induction on the first arguments. -/
theorem split (takes : Takes given (first ++ second) after)
    : ∃ between, Takes given first between ∧ Takes between second after := by
  induction first generalizing given with
  | nil => exact ⟨given, .nothing given, takes⟩
  | cons item first ih =>
      cases takes with
      | next fresh fits rest =>
          obtain ⟨between, front, back⟩ := ih rest
          exact ⟨between, .next fresh fits front, back⟩

theorem keys (takes : Takes given said after)
    : after.map Prod.fst = given.map Prod.fst ++ said.map Prod.fst := by
  induction takes with
  | nothing => simp
  | next _ _ _ ih => simp [ih]

/-- No argument is taken twice, by induction on the arguments. -/
theorem nodup (takes : Takes given said after) (once : (given.map Prod.fst).Nodup)
    : (after.map Prod.fst).Nodup := by
  induction takes with
  | nothing => exact once
  | next fresh _ _ ih =>
      refine ih ?_
      rw [Given.value?_eq_none_iff] at fresh
      rw [List.map_append, List.nodup_append]
      refine ⟨once, by simp, ?_⟩
      rintro argument member _ single rfl
      simp only [List.map_cons, List.map_nil, List.mem_singleton] at single
      exact fresh (single ▸ member)

theorem fits (takes : Takes given said after)
    : ∀ item ∈ said, ∃ value, Value.ofText item.1 item.2 = .ok value := by
  induction takes with
  | nothing => simp
  | next _ fits _ ih => exact List.forall_mem_cons.mpr ⟨⟨_, fits⟩, ih⟩

/-- Arguments that are new, differ and have values that fit can be taken; by induction on them. -/
theorem exists_of_fits (once : (given.map Prod.fst ++ said.map Prod.fst).Nodup)
    (fits : ∀ item ∈ said, ∃ value, Value.ofText item.1 item.2 = .ok value)
    : ∃ after, Takes given said after := by
  induction said generalizing given with
  | nil => exact ⟨given, .nothing given⟩
  | cons item said ih =>
      obtain ⟨argument, s⟩ := item
      obtain ⟨⟨value, fit⟩, others⟩ := List.forall_mem_cons.mp fits
      obtain ⟨after, takes⟩ := @ih (given ++ [(argument, value)]) (by simpa using once) others
      refine ⟨after, .next (Given.value?_eq_none_iff.mpr fun member => ?_) fit takes⟩
      exact (List.nodup_append.mp once).2.2 argument member argument (by simp) rfl

/-- An argument has the value that was given before, or that of its text; by induction on what is
taken.
-/
theorem value?_eq (takes : Takes given said after) (argument : Argument)
    : after.value? argument
      = (given.value? argument).or
          ((said.lookup argument).bind fun s => (Value.ofText argument s).toOption) := by
  induction takes with
  | nothing given => simp
  | @next given other s value said after fresh fits _ ih =>
      rw [ih, Given.value?_append, Option.or_assoc]
      congr 1
      rw [List.lookup_cons]
      by_cases same : argument = other
      · subst same
        simp [Given.value?, fits, Except.toOption]
      · have apart : (argument == other) = false := by simpa using same
        simp [Given.value?, apart, Ne.symm same]

end Takes

end DocPipeline.CommandLine
