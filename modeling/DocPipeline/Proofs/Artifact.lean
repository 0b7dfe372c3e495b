import DocPipeline.Artifact
import DocPipeline.Proofs.Except
import DocPipeline.Proofs.Text.Pieces

/-! The text of artifacts. It is the text whose bytes the first artifact holds, and there is none if
these bytes are no text; what comes after the first artifact does not matter.
-/

namespace DocPipeline.Artifact

open Text.Utf8

variable {content policy : String} {artifacts : List Artifact}

/-- The text is the one that the first artifact encodes, by cases on whether there is one. -/
theorem firstText_eq_ok_iff {text : String}
    : firstText content policy artifacts = .ok text
      ↔ ∃ first rest, artifacts = first :: rest ∧ first.content = encode text := by
  cases artifacts with
  | nil => simp [firstText]
  | cons first rest =>
      rw [firstText, Except.mapError_eq_ok_iff, decode_eq_ok_iff]
      simp

/-- A first artifact that is no text is a failure, which says where its bytes stop being one. -/
theorem firstText_of_not_isText {first : Artifact} (rest : List Artifact)
    (textless : ¬ IsText first.content)
    : ∃ fault,
        firstText content policy (first :: rest) = .error (.artifactNotText first.id fault)
        ∧ Marks first.content fault := by
  obtain ⟨fault, refused, marks⟩ := exists_marks_of_not_isText textless
  refine ⟨fault, ?_, marks⟩
  rw [firstText, refused, Except.error_mapError]

/-- Artifacts have a text exactly if there is a first one and its bytes encode that text, which
bytes with a flaw behind some text do not. Without artifacts the failure names the content and the
policy. Otherwise it names the first artifact and the number of bytes in the longest text at the
front; it calls the bytes incomplete exactly if the rest of them is the beginning of a character,
and else counts the bytes of the ill-formed piece there. Further artifacts never matter.
-/
theorem firstText_decodes_exactly (content policy : String) (artifacts : List Artifact)
    : (∀ text, firstText content policy artifacts = .ok text
        ↔ ∃ first rest, artifacts = first :: rest ∧ first.content = encode text)
      ∧ (artifacts = [] → firstText content policy artifacts = .error (.noArtifacts content policy))
      ∧ ∀ first rest, artifacts = first :: rest
        → firstText content policy artifacts = firstText content policy [first]
          ∧ ((∃ failure, firstText content policy artifacts = .error failure)
              ↔ ∃ text behind, first.content = encode text ++ behind ∧ Flaw behind)
          ∧ ∀ failure, firstText content policy artifacts = .error failure
            → ∃ fault,
                failure = .artifactNotText first.id fault
                ∧ failure.message
                  = "Artifact '" ++ first.id ++ "' is not valid UTF-8: " ++ fault.message
                ∧ IsGreatest {n | n ≤ first.content.length ∧ IsText (first.content.take n)}
                    fault.index
                ∧ (IsCutOff (first.content.drop fault.index)
                    → fault.message
                      = "incomplete utf-8 byte sequence from index " ++ toString fault.index)
                ∧ (¬ IsCutOff (first.content.drop fault.index)
                    → ∃ length,
                        fault.message
                          = "invalid utf-8 sequence of " ++ toString length
                            ++ " bytes from index " ++ toString fault.index
                        ∧ IllFormed ((first.content.drop fault.index).take length)
                            ((first.content.drop fault.index).drop length)) := by
  refine ⟨fun _ => firstText_eq_ok_iff, ?_, ?_⟩
  · rintro rfl
    rfl
  · rintro first rest rfl
    refine ⟨rfl, ?_, ?_⟩
    · rw [← not_isText_iff]
      constructor
      · rintro ⟨failure, refused⟩ ⟨text, encoded⟩
        cases refused.symm.trans (firstText_eq_ok_iff.mpr ⟨first, rest, rfl, encoded⟩)
      · intro textless
        obtain ⟨fault, refused, _⟩ := firstText_of_not_isText rest textless
        exact ⟨_, refused⟩
    · intro failure refused
      have textless : ¬ IsText first.content := by
        rintro ⟨text, encoded⟩
        cases refused.symm.trans (firstText_eq_ok_iff.mpr ⟨first, rest, rfl, encoded⟩)
      obtain ⟨fault, alsoRefused, marks⟩ := firstText_of_not_isText rest textless
      obtain rfl := Except.error.inj (refused.symm.trans alsoRefused)
      exact ⟨fault, rfl, rfl, marks.index, marks.message_of_cut, marks.message_of_not_cut⟩

/-- Behind a letter, a leading byte with nothing to continue it is reported at index one, whatever
the second artifact holds; without the byte behind it the same bytes are called incomplete.
-/
theorem firstText_decodes_exactly_of_broken
    : let artifacts (bytes : Bytes) : List Artifact :=
        [⟨"bad", "text/plain", bytes⟩, ⟨"next", "text/plain", [0x42]⟩]
      firstText "c" "p" (artifacts [0x42, 0xC3, 0x28]) = .error (.artifactNotText "bad" ⟨1, some 1⟩)
      ∧ IsGreatest {n | n ≤ 3 ∧ IsText (([0x42, 0xC3, 0x28] : Bytes).take n)} 1
      ∧ firstText "c" "p" (artifacts [0x42, 0xC3]) = .error (.artifactNotText "bad" ⟨1, none⟩)
      ∧ IsGreatest {n | n ≤ 2 ∧ IsText (([0x42, 0xC3] : Bytes).take n)} 1 := by
  intro artifacts
  have broken : firstText "c" "p" (artifacts [0x42, 0xC3, 0x28])
      = .error (.artifactNotText "bad" ⟨1, some 1⟩) := by decide +kernel
  have cut : firstText "c" "p" (artifacts [0x42, 0xC3])
      = .error (.artifactNotText "bad" ⟨1, none⟩) := by decide +kernel
  obtain ⟨_, _, reads⟩ := firstText_decodes_exactly "c" "p" (artifacts [0x42, 0xC3, 0x28])
  obtain ⟨_, _, alsoReads⟩ := firstText_decodes_exactly "c" "p" (artifacts [0x42, 0xC3])
  obtain ⟨fault, same, _, index, _⟩ := (reads _ _ rfl).2.2 _ broken
  obtain ⟨other, alsoSame, _, alsoIndex, _⟩ := (alsoReads _ _ rfl).2.2 _ cut
  cases same
  cases alsoSame
  exact ⟨broken, index, cut, alsoIndex⟩

end DocPipeline.Artifact
