import DocPipeline.Proofs.Schedule
import DocPipeline.Proofs.Text.Words
import DocPipeline.Service.Client

/-! Settings put together step by step. Each field holds what the last step that sets it has said,
the rules are checked in one order, and what is accepted is an address of a server and a range of
pauses.
-/

namespace DocPipeline

-----------------------------------------------------------------------------------------
-- Fields
-----------------------------------------------------------------------------------------

namespace Settings

/-- A part of settings that is set on its own. -/
inductive Field where
  | server | space | downloadSeconds | requestSeconds | initial | longestPause | timeout | workDir
  | createGraph | reuseGraph | listener
deriving DecidableEq, Repr

/-- What a field holds. -/
abbrev Field.Value : Field → Type
  | server | space => String
  | downloadSeconds | requestSeconds => UInt64
  | initial | longestPause => Interval
  | timeout => Option Interval
  | workDir => Option String
  | createGraph | reuseGraph => Bool
  | listener => Option Listener

/-- What the settings hold in a field. -/
def get (s : Settings) : (field : Field) → field.Value
  | .server => s.server
  | .space => s.space
  | .downloadSeconds => s.downloadSeconds
  | .requestSeconds => s.requestSeconds
  | .initial => s.schedule.initial
  | .longestPause => s.schedule.longestPause
  | .timeout => s.schedule.timeout
  | .workDir => s.workDir
  | .createGraph => s.createGraph
  | .reuseGraph => s.reuseGraph
  | .listener => s.listener

end Settings

/-- What a step puts into a field, none if it leaves the field alone. A schedule fills three fields.
-/
def Setting.value? : Setting → (field : Settings.Field) → Option field.Value
  | .server url, .server => some (Settings.withoutSlashes url)
  | .space name, .space => some name
  | .downloadSeconds n, .downloadSeconds => some n
  | .requestSeconds n, .requestSeconds => some n
  | .initialMillis n, .initial => some (.ofMillis n)
  | .longestMillis n, .longestPause => some (.ofMillis n)
  | .waitSeconds n, .timeout => some (if 0 < n then some (.ofSeconds n) else none)
  | .schedule s, .initial => some s.initial
  | .schedule s, .longestPause => some s.longestPause
  | .schedule s, .timeout => some s.timeout
  | .workDir path, .workDir => some (some path)
  | .createGraph yes, .createGraph => some yes
  | .reuseGraph yes, .reuseGraph => some yes
  | .listener who, .listener => some (some who)
  | _, _ => none

namespace Settings

variable {s t : Settings} {field : Field} {step : Setting}

/-- The fields are all there is to settings. -/
theorem eq_of_get (same : ∀ field, s.get field = t.get field) : s = t := by
  obtain ⟨_, _, _, _, ⟨_, _, _⟩, _, _, _, _⟩ := s
  obtain ⟨_, _, _, _, ⟨_, _, _⟩, _, _, _, _⟩ := t
  simp only [mk.injEq, Schedule.mk.injEq]
  exact ⟨same .server, same .space, same .downloadSeconds, same .requestSeconds,
    ⟨same .initial, same .longestPause, same .timeout⟩, same .workDir, same .createGraph,
    same .reuseGraph, same .listener⟩

theorem get_set (s : Settings) (step : Setting) (field : Field)
    : (s.set step).get field = (step.value? field).getD (s.get field) := by
  cases step <;> cases field <;> rfl

/-- A field holds what the last of the steps that set it has said; by induction on the steps from
the end.
-/
theorem get_foldl_set (steps : List Setting) (s : Settings) (field : Field)
    : (steps.foldl set s).get field
      = (steps.reverse.findSome? (·.value? field)).getD (s.get field) := by
  induction steps using List.reverseRecOn with
  | nil => rfl
  | append_singleton steps step ih =>
      rw [List.foldl_append, List.foldl_cons, List.foldl_nil, get_set, ih, List.reverse_append,
        List.reverse_singleton, List.singleton_append, List.findSome?_cons]
      cases step.value? field <;> rfl

/-- Two steps that set no field in common can be taken in either order. -/
theorem set_comm {first second : Setting}
    (apart : ∀ field, first.value? field = none ∨ second.value? field = none) (s : Settings)
    : (s.set first).set second = (s.set second).set first := by
  refine eq_of_get fun field => ?_
  simp only [get_set]
  rcases apart field with none | none <;> rw [none] <;> rfl

-----------------------------------------------------------------------------------------
-- Slashes at the end
-----------------------------------------------------------------------------------------

/-- The text does not end in a slash. -/
def EndsOpen (s : String) : Prop :=
  s.toList.getLast? ≠ some '/'

theorem toList_withoutSlashes (s : String)
    : (withoutSlashes s).toList = s.toList.rdropWhile (· == '/') := by
  rw [withoutSlashes, String.toList_ofList]
  rfl

theorem endsOpen_iff {s : String}
    : EndsOpen s ↔ ∀ nonempty : s.toList ≠ [], s.toList.getLast nonempty ≠ '/' := by
  constructor
  · intro ends nonempty same
    exact ends (by rw [List.getLast?_eq_some_getLast nonempty, same])
  · intro ends same
    have nonempty : s.toList ≠ [] := by
      intro none
      simp [none] at same
    rw [List.getLast?_eq_some_getLast nonempty] at same
    exact ends nonempty (Option.some.inj same)

/-- Only slashes are taken off, and all of them. -/
theorem withoutSlashes_spec (s : String)
    : (∃ n, s.toList = (withoutSlashes s).toList ++ List.replicate n '/')
      ∧ EndsOpen (withoutSlashes s) := by
  have slashes : s.toList.rtakeWhile (· == '/')
      = List.replicate (s.toList.rtakeWhile (· == '/')).length '/' := by
    rw [List.eq_replicate_iff]
    exact ⟨rfl, fun c member => by simpa using List.mem_rtakeWhile_imp member⟩
  refine ⟨⟨(s.toList.rtakeWhile (· == '/')).length, ?_⟩, endsOpen_iff.mpr fun nonempty => ?_⟩
  · rw [toList_withoutSlashes, ← slashes, List.rdropWhile_append_rtakeWhile]
  · simp only [toList_withoutSlashes] at nonempty ⊢
    simpa using List.rdropWhile_last_not _ _ nonempty

theorem withoutSlashes_eq_self {s : String} (ends : EndsOpen s) : withoutSlashes s = s := by
  rw [← String.toList_inj, toList_withoutSlashes, List.rdropWhile_eq_self_iff]
  intro nonempty
  simpa using endsOpen_iff.mp ends nonempty

/-- Whatever steps are taken, the server does not end in a slash, since the step that sets it takes
the slashes off and the standard one has none.
-/
theorem endsOpen_server (steps : List Setting) : EndsOpen (steps.foldl set standard).server := by
  have last := get_foldl_set steps standard .server
  simp only [get] at last
  rw [last]
  cases found : steps.reverse.findSome? (·.value? .server) with
  | none =>
      unfold EndsOpen
      decide
  | some url =>
      obtain ⟨step, _, sets⟩ := List.exists_of_findSome?_eq_some found
      cases step with
      | server given =>
          obtain rfl : withoutSlashes given = url := Option.some.inj sets
          exact (withoutSlashes_spec given).2
      | _ => cases sets

-----------------------------------------------------------------------------------------
-- Rules
-----------------------------------------------------------------------------------------

/-- The server is given by an address on the web. -/
def OnWeb (s : Settings) : Prop :=
  ∃ rest, s.server = "http://" ++ rest ∨ s.server = "https://" ++ rest

/-- There is something to the name of the space. -/
def Named (s : Settings) : Prop :=
  ∃ c ∈ s.space.toList, Text.isBlank c = false

/-- The first rule that settings break: that the server is on the web, that the space has a name,
that there is a pause, and that the longest one is no shorter than it.
-/
inductive FirstBroken (s : Settings) : Violation → Prop
  | server (elsewhere : ¬ s.OnWeb) : FirstBroken s (.serverScheme s.server)
  | space (web : s.OnWeb) (blank : ¬ s.Named) : FirstBroken s .emptySpace
  | pause (web : s.OnWeb) (named : s.Named) (none : s.schedule.initial.toNanos = 0)
    : FirstBroken s .noPause
  | order (web : s.OnWeb) (named : s.Named) (some : s.schedule.initial.toNanos ≠ 0)
    (shorter : s.schedule.longestPause.toNanos < s.schedule.initial.toNanos)
    : FirstBroken s (.pausesInverted s.schedule.longestPause s.schedule.initial)

theorem isWebAddress_iff (s : Settings) : Url.isWebAddress s.server = true ↔ s.OnWeb := by
  have begins (scheme : String)
      : scheme.toList.isPrefixOf s.server.toList = true ↔ ∃ rest, s.server = scheme ++ rest := by
    rw [List.isPrefixOf_iff_prefix]
    constructor
    · rintro ⟨rest, spelled⟩
      exact ⟨String.ofList rest, by rw [← String.toList_inj]; simp [spelled]⟩
    · rintro ⟨rest, same⟩
      rw [same, String.toList_append]
      exact List.prefix_append _ _
  rw [Url.isWebAddress, Bool.or_eq_true, begins, begins, OnWeb, exists_or]

theorem isEmptyTrimmed_iff_named (s : Settings)
    : Text.isEmptyTrimmed s.space = false ↔ s.Named :=
  Text.isEmptyTrimmed_eq_false_iff s.space

theorem check_of_firstBroken {s : Settings} {violation : Violation}
    (broken : s.FirstBroken violation) : s.check = .error violation := by
  unfold check
  cases broken with
  | server elsewhere => simp [isWebAddress_iff, elsewhere]
  | space web blank =>
      have empty : Text.isEmptyTrimmed s.space = true := by
        simpa using mt s.isEmptyTrimmed_iff_named.mp blank
      simp [(s.isWebAddress_iff).mpr web, empty]
  | pause web named none =>
      have zero : s.schedule.initial.isZero = true := by
        simpa [none] using mt (Interval.isZero_eq_false_iff (d := s.schedule.initial)).mp
      simp [(s.isWebAddress_iff).mpr web, (s.isEmptyTrimmed_iff_named).mpr named, zero]
  | order web named some shorter =>
      have positive := Interval.isZero_eq_false_iff.mpr (Nat.pos_of_ne_zero some)
      simp [(s.isWebAddress_iff).mpr web, (s.isEmptyTrimmed_iff_named).mpr named, positive,
        Interval.before_iff.mpr shorter]

theorem firstBroken_of_check {s : Settings} {violation : Violation}
    (failed : s.check = .error violation) : s.FirstBroken violation := by
  unfold check at failed
  split at failed
  next elsewhere =>
    cases failed
    exact .server (by simpa [← isWebAddress_iff] using elsewhere)
  next web =>
    have web : s.OnWeb := by simpa [isWebAddress_iff] using web
    split at failed
    next blank =>
      cases failed
      exact .space web (by simpa [← isEmptyTrimmed_iff_named] using blank)
    next named =>
      have named : s.Named := by simpa [isEmptyTrimmed_iff_named] using named
      split at failed
      next zero =>
        cases failed
        refine .pause web named (Nat.eq_zero_of_not_pos fun positive => ?_)
        rw [Interval.isZero_eq_false_iff.mpr positive] at zero
        cases zero
      next positive =>
        rw [Bool.not_eq_true, Interval.isZero_eq_false_iff] at positive
        split at failed
        next shorter =>
          cases failed
          exact .order web named positive.ne' (Interval.before_iff.mp shorter)
        next => cases failed

theorem sensible_iff (s : Settings)
    : s.Sensible ↔ s.OnWeb ∧ s.Named ∧ s.schedule.initial.toNanos ≠ 0
        ∧ s.schedule.initial.toNanos ≤ s.schedule.longestPause.toNanos := by
  rw [← isWebAddress_iff, ← isEmptyTrimmed_iff_named, ← Nat.pos_iff_ne_zero]
  constructor
  · rintro ⟨web, named, pauses, ordered⟩
    exact ⟨web, named, pauses, ordered⟩
  · rintro ⟨web, named, pauses, ordered⟩
    exact ⟨web, named, pauses, ordered⟩

theorem build_eq_error_iff {steps : List Setting} {violation : Violation}
    : build steps = .error violation ↔ (steps.foldl set standard).FirstBroken violation := by
  have same : build steps = .error violation
      ↔ (steps.foldl set standard).check = .error violation := by
    unfold build
    dsimp only
    generalize (steps.foldl set standard).check = checked
    cases checked <;> simp [Except.map]
  exact same.trans ⟨firstBroken_of_check, check_of_firstBroken⟩

-----------------------------------------------------------------------------------------
-- Settings that are accepted
-----------------------------------------------------------------------------------------

/-- Behind the scheme of a server on the web stands something, since the scheme ends in a slash and
the server does not.
-/
theorem exists_behind_scheme {s : Settings} (web : s.OnWeb) (ends : EndsOpen s.server)
    : ∃ rest, rest ≠ "" ∧ (s.server = "http://" ++ rest ∨ s.server = "https://" ++ rest) := by
  obtain ⟨rest, spelled⟩ := web
  refine ⟨rest, ?_, spelled⟩
  rintro rfl
  rcases spelled with bare | bare <;> exact ends (by rw [bare]; decide)

/-- Every field of settings holds what the last step that sets it puts there, and what is standard
if no step does; so two steps that follow each other and have no field in common can change places.
Settings are accepted exactly if they keep all rules, and refused for the first rule that they
break. What is accepted names more than a scheme as its server, which is taken as it stands wherever
it is given again, and all its pauses are between the initial and the longest one.
-/
theorem build_keeps_last
    : (∀ (steps : List Setting) (field : Field), (steps.foldl set standard).get field
        = (steps.reverse.findSome? (·.value? field)).getD (standard.get field))
      ∧ (∀ s t : Settings, (∀ field, s.get field = t.get field) → s = t)
      ∧ (∀ (front : List Setting) (first second : Setting) (rest : List Setting),
          (∀ field, first.value? field = none ∨ second.value? field = none)
          → (front ++ first :: second :: rest).foldl set standard
            = (front ++ second :: first :: rest).foldl set standard)
      ∧ (∀ url, (∃ n, url.toList = (withoutSlashes url).toList ++ List.replicate n '/')
          ∧ EndsOpen (withoutSlashes url))
      ∧ (∀ steps s, build steps = .ok s
          ↔ s = steps.foldl set standard ∧ s.OnWeb ∧ s.Named
            ∧ s.schedule.initial.toNanos ≠ 0
            ∧ s.schedule.initial.toNanos ≤ s.schedule.longestPause.toNanos)
      ∧ (∀ steps violation, build steps = .error violation
          ↔ (steps.foldl set standard).FirstBroken violation)
      ∧ ∀ steps s, build steps = .ok s
        → (∃ rest, rest ≠ "" ∧ (s.server = "http://" ++ rest ∨ s.server = "https://" ++ rest))
          ∧ EndsOpen s.server
          ∧ (∀ t : Settings, (t.set (.server s.server)).server = s.server)
          ∧ (∀ space, (Client.standard s.server space).base = s.server)
          ∧ ∀ check, s.schedule.initial.toNanos ≤ (s.schedule.pauseAfter check).toNanos
            ∧ (s.schedule.pauseAfter check).toNanos ≤ s.schedule.longestPause.toNanos := by
  refine ⟨fun steps => get_foldl_set steps standard, fun _ _ => eq_of_get, ?_,
    withoutSlashes_spec, ?_, fun _ _ => build_eq_error_iff, ?_⟩
  · intro front first second rest apart
    simp only [List.foldl_append, List.foldl_cons, set_comm apart]
  · intro steps s
    rw [build_eq_ok_iff]
    exact and_congr_right fun _ => sensible_iff s
  · intro steps s built
    obtain ⟨rfl, sensible⟩ := build_eq_ok_iff.mp built
    have ends := endsOpen_server steps
    have kept := withoutSlashes_eq_self ends
    refine ⟨exists_behind_scheme ((sensible_iff _).mp sensible).1 ends, ends, fun _ => kept,
      fun _ => kept, fun check => ⟨?_, Schedule.toNanos_pauseAfter_le _ check⟩⟩
    have least := Schedule.min_le_toNanos_pauseAfter (steps.foldl set standard).schedule check
    rwa [Nat.min_eq_left sensible.ordered] at least

/-- Steps of which a schedule overrides an earlier one, and a later one overrides part of it. -/
def overridingSteps : List Setting :=
  [.initialMillis 50, .schedule .default, .longestMillis 2000, .server "https://host//"]

/-- The schedule overrides the initial interval before it, and not the longest pause behind it,
which can as well be set behind the server. The server is taken without its slashes.
-/
theorem build_keeps_last_of_overriding
    : let s := overridingSteps.foldl set standard
      build overridingSteps = .ok s
      ∧ s.get .initial = .ofMillis 500
      ∧ s.get .longestPause = .ofMillis 2000
      ∧ s = [.initialMillis 50, .schedule .default, .server "https://host//",
          .longestMillis 2000].foldl set standard
      ∧ s.server = "https://host"
      ∧ (∀ space, (Client.standard s.server space).base = s.server)
      ∧ ∀ check, (s.schedule.pauseAfter check).toNanos ≤ (Interval.ofMillis 2000).toNanos := by
  intro s
  obtain ⟨last, _, swaps, _, _, _, guarantees⟩ := build_keeps_last
  have built : build overridingSteps = .ok s := by decide
  obtain ⟨_, _, _, base, pauses⟩ := guarantees overridingSteps s built
  refine ⟨built, last overridingSteps .initial, last overridingSteps .longestPause, ?_, by decide,
    base, fun check => (pauses check).2⟩
  refine swaps [.initialMillis 50, .schedule .default] (.longestMillis 2000)
    (.server "https://host//") [] fun field => ?_
  cases field with
  | longestPause => exact .inr rfl
  | _ => exact .inl rfl

/-- Of two listeners the one that was set last is told, whatever is set in between. -/
example : [.listener ⟨1⟩, .schedule .default, .listener ⟨2⟩].foldl set standard
    = { standard with listener := some ⟨2⟩ } := by
  decide

/-- A scheme alone is no server, since its slashes are taken off. -/
example : build [.server "http://"] = .error (.serverScheme "http:") := by
  decide

end Settings
end DocPipeline
