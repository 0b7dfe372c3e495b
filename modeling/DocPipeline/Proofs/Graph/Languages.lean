import DocPipeline.Graph.Validity
import DocPipeline.Proofs.Text.Words

/-! The graphs that come built in, one for each language. They keep the rules whatever the language
is, and the words of the language in small letters tell one from the other.
-/

namespace DocPipeline.Graph

-----------------------------------------------------------------------------------------
-- Rules and credentials
-----------------------------------------------------------------------------------------

/-- A graph of one policy that reads the document keeps the rules if everything has a name. -/
theorem validate_single {name extractor policy : String} {params : Params}
    (description : Option String) (named : Text.isEmptyTrimmed name = false)
    (extracts : Text.isEmptyTrimmed extractor = false)
    (policyNamed : Text.isEmptyTrimmed policy = false)
    : validate ⟨name, description, [⟨extractor, policy, params, none⟩]⟩ = .ok () := by
  simp only [validate, named, checkNames, extracts, policyNamed, checkSources]
  rfl

/-- Graphs for a language keep the rules, since their names begin with a letter whatever the
language is.
-/
theorem validate_forLanguage (language model key : String)
    : (forLanguage language model key).validate = .ok () := by
  unfold forLanguage
  extract_lets slug prompt
  split
  · exact validate_single none (by decide) (by decide) (by decide)
  · refine validate_single none ?_ (by decide) ?_
    · exact Text.isEmptyTrimmed_append _ rfl (by decide)
    · exact Text.isEmptyTrimmed_append _ rfl (by decide)

/-- Credentials pass when the one of each policy is usable. -/
theorem ensureCredentials_eq_ok_iff (graph : Graph)
    : graph.ensureCredentials = .ok ()
      ↔ ∀ policy ∈ graph.policies, keyUsable policy.params.key = true := by
  unfold ensureCredentials
  cases found : graph.policies.find? fun p => !keyUsable p.params.key with
  | none =>
      rw [List.find?_eq_none] at found
      simpa using found
  | some policy =>
      have unusable := List.find?_some found
      have member := List.mem_of_find?_eq_some found
      constructor
      · nofun
      · intro usable
        rw [usable policy member] at unusable
        cases unusable

/-- A credential that the service can use: something is left of it after trimming, and that is not
what stands for a credential.
-/
theorem keyUsable_iff (key : String)
    : keyUsable key = true
      ↔ Text.trimmed key ≠ "" ∧ Text.trimmed key ≠ placeholderKey := by
  simp [keyUsable]

-----------------------------------------------------------------------------------------
-- Slugs
-----------------------------------------------------------------------------------------

/-- The words of a language, each in small letters on its own. -/
def languageWords (language : String) : List (List Char) :=
  (Text.words language.toList).map Text.lowercase

/-- An underscore separates words as well for the small letters as the white space before it. -/
theorem toList_languageSlug (language : String)
    : (languageSlug language).toList = Text.joinWith '_' (languageWords language) := by
  rw [languageSlug, String.toList_ofList]
  exact Text.lowercase_joinWith Text.neutral_underscore _

theorem ne_nil_of_mem_languageWords {language : String} {word : List Char}
    (member : word ∈ languageWords language) : word ≠ [] := by
  obtain ⟨written, among, rfl⟩ := List.mem_map.mp member
  exact Text.lowercase_ne_nil (Text.ne_nil_of_mem_wordsFrom among)

theorem underscore_not_mem_languageWords {language : String} (plain : '_' ∉ language.toList)
    {word : List Char} (member : word ∈ languageWords language) : '_' ∉ word := by
  obtain ⟨written, among, rfl⟩ := List.mem_map.mp member
  exact fun inside => plain
    (Text.mem_of_mem_words among (Text.mem_of_mem_lowercaseAfter Text.neutral_underscore inside))

theorem languageSlug_eq_iff {language other : String} (plain : '_' ∉ language.toList)
    (plainToo : '_' ∉ other.toList)
    : languageSlug language = languageSlug other
      ↔ languageWords language = languageWords other := by
  rw [← String.toList_inj, toList_languageSlug, toList_languageSlug]
  constructor
  · exact Text.joinWith_inj (fun _ => ne_nil_of_mem_languageWords)
      (fun _ => underscore_not_mem_languageWords plain) (fun _ => ne_nil_of_mem_languageWords)
      (fun _ => underscore_not_mem_languageWords plainToo)
  · intro same
    rw [same]

/-- Only a language whose one word is the standard one has the standard slug. -/
theorem languageSlug_eq_standardSlug_iff (language : String)
    : languageSlug language = standardSlug ↔ languageWords language = ["french".toList] := by
  rw [← String.toList_inj, toList_languageSlug]
  constructor
  · exact Text.eq_singleton_of_joinWith (by decide) (by decide)
  · intro same
    rw [same]
    rfl

-----------------------------------------------------------------------------------------
-- Names
-----------------------------------------------------------------------------------------

variable {language other model key : String}

theorem forLanguage_of_standard (same : languageWords language = ["french".toList])
    : forLanguage language model key = standard model key := by
  rw [forLanguage]
  exact if_pos ((languageSlug_eq_standardSlug_iff language).mpr same)

theorem forLanguage_of_other (different : languageWords language ≠ ["french".toList])
    : forLanguage language model key
      = { name := standardName ++ "_" ++ languageSlug language
          description := none
          policies := [⟨standardExtractor, "pdf_to_" ++ languageSlug language,
            ⟨model, key, Prompt.between "English" (Text.trimmed language)⟩, none⟩] } := by
  rw [forLanguage]
  exact if_neg (mt (languageSlug_eq_standardSlug_iff language).mp different)

/-- The one policy is named for the language in the standard graph, too. -/
theorem namesOf_forLanguage (language model key : String)
    : namesOf (forLanguage language model key).policies = ["pdf_to_" ++ languageSlug language] := by
  by_cases same : languageWords language = ["french".toList]
  · rw [forLanguage_of_standard same, (languageSlug_eq_standardSlug_iff language).mpr same]
    rfl
  · rw [forLanguage_of_other same]
    rfl

theorem policyNames_eq_iff {model' key' : String}
    : namesOf (forLanguage language model key).policies
        = namesOf (forLanguage other model' key').policies
      ↔ languageSlug language = languageSlug other := by
  rw [namesOf_forLanguage, namesOf_forLanguage, List.cons.injEq, and_iff_left rfl,
    String.append_right_inj]

/-- Behind the name of the standard graph stands at least the underscore. -/
theorem name_forLanguage_ne (different : languageWords language ≠ ["french".toList])
    : (forLanguage language model key).name ≠ standardName := by
  rw [forLanguage_of_other different]
  intro same
  have length := congrArg String.length same
  have one : "_".length = 1 := by decide
  rw [String.length_append, String.length_append, one] at length
  omega

/-- Graphs have the same name exactly if their slugs are the same, by cases on which of them are the
standard one.
-/
theorem name_forLanguage_eq_iff {model' key' : String}
    : (forLanguage language model key).name = (forLanguage other model' key').name
      ↔ languageSlug language = languageSlug other := by
  by_cases first : languageWords language = ["french".toList]
  · rw [(languageSlug_eq_standardSlug_iff language).mpr first, forLanguage_of_standard first]
    by_cases second : languageWords other = ["french".toList]
    · rw [(languageSlug_eq_standardSlug_iff other).mpr second, forLanguage_of_standard second]
      exact ⟨fun _ => rfl, fun _ => rfl⟩
    · refine ⟨fun same => absurd same.symm (name_forLanguage_ne second), fun same => ?_⟩
      exact absurd ((languageSlug_eq_standardSlug_iff other).mp same.symm) second
  · by_cases second : languageWords other = ["french".toList]
    · rw [forLanguage_of_standard second]
      refine ⟨fun same => absurd same (name_forLanguage_ne first), fun same => ?_⟩
      rw [(languageSlug_eq_standardSlug_iff other).mpr second] at same
      exact absurd ((languageSlug_eq_standardSlug_iff language).mp same) first
    · rw [forLanguage_of_other first, forLanguage_of_other second]
      exact String.append_right_inj _

/-- Every language has a graph of one policy that reads the document. It keeps the rules, it has
usable credentials exactly if the one it is made with is usable, and it carries the model and that
credential. The standard graph is that of the language whose one word is the standard one in small
letters; every other language has another graph, with an instruction that names it. Languages
without underscores share the names of graph and policy exactly if they have the same words in small
letters.
-/
theorem forLanguage_is_own
    : (∀ language model key : String,
        ∃ policy, (forLanguage language model key).policies = [policy] ∧ policy.source = none
          ∧ policy.params.model = model ∧ policy.params.key = key
          ∧ (forLanguage language model key).validate = .ok ()
          ∧ ((forLanguage language model key).ensureCredentials = .ok ()
            ↔ Text.trimmed key ≠ "" ∧ Text.trimmed key ≠ placeholderKey)
          ∧ (languageWords language = ["french".toList]
            → forLanguage language model key = standard model key)
          ∧ (languageWords language ≠ ["french".toList]
            → (forLanguage language model key).name ≠ "pdf_translator"
              ∧ policy.params.prompt = Prompt.between "English" (Text.trimmed language)))
      ∧ ∀ language other model key model' key' : String,
          '_' ∉ language.toList → '_' ∉ other.toList
          → ((forLanguage language model key).name = (forLanguage other model' key').name
              ↔ namesOf (forLanguage language model key).policies
                = namesOf (forLanguage other model' key').policies)
            ∧ (namesOf (forLanguage language model key).policies
                = namesOf (forLanguage other model' key').policies
              ↔ (Text.words language.toList).map Text.lowercase
                = (Text.words other.toList).map Text.lowercase) := by
  constructor
  · intro language model key
    have valid := validate_forLanguage language model key
    have credentials := ensureCredentials_eq_ok_iff (forLanguage language model key)
    by_cases same : languageWords language = ["french".toList]
    · refine ⟨_, congrArg Graph.policies (forLanguage_of_standard same), rfl, rfl, rfl, valid, ?_,
        fun _ => forLanguage_of_standard same, fun different => absurd same different⟩
      rw [credentials, forLanguage_of_standard same, ← keyUsable_iff]
      exact List.forall_mem_singleton
    · refine ⟨_, congrArg Graph.policies (forLanguage_of_other same), rfl, rfl, rfl, valid, ?_,
        fun standard => absurd standard same, fun _ => ⟨name_forLanguage_ne same, rfl⟩⟩
      rw [credentials, forLanguage_of_other same, ← keyUsable_iff]
      exact List.forall_mem_singleton
  · intro language other model key model' key' plain plainToo
    rw [name_forLanguage_eq_iff, policyNames_eq_iff, languageSlug_eq_iff plain plainToo]
    exact ⟨Iff.rfl, Iff.rfl⟩

/-- Two spellings of one language share a graph, though a capital sigma has two small letters and
the words stand apart in two ways. The standard language is known by its small letters, and another
one has a name and an instruction of its own.
-/
theorem forLanguage_is_own_of_sigma
    : ('_' ∉ "ΟΔΟΣ ΑΣ".toList ∧ '_' ∉ " οδος\tας".toList)
      ∧ (forLanguage "ΟΔΟΣ ΑΣ" "m" "k").name = (forLanguage " οδος\tας" "m" "k").name
      ∧ forLanguage " FRENCH" "m" "k" = standard "m" "k"
      ∧ (forLanguage "French  creole" "m" "k").name ≠ "pdf_translator" := by
  have plain : '_' ∉ "ΟΔΟΣ ΑΣ".toList ∧ '_' ∉ " οδος\tας".toList := by decide
  have same : (Text.words "ΟΔΟΣ ΑΣ".toList).map Text.lowercase
      = (Text.words " οδος\tας".toList).map Text.lowercase := by decide +kernel
  obtain ⟨each, names⟩ := forLanguage_is_own
  obtain ⟨shared, words⟩ := names "ΟΔΟΣ ΑΣ" " οδος\tας" "m" "k" "m" "k" plain.1 plain.2
  obtain ⟨_, _, _, _, _, _, _, standardly, _⟩ := each " FRENCH" "m" "k"
  obtain ⟨_, _, _, _, _, _, _, _, otherwise⟩ := each "French  creole" "m" "k"
  exact ⟨plain, shared.mpr (words.mpr same), standardly (by decide +kernel),
    (otherwise (by decide +kernel)).1⟩

end DocPipeline.Graph
