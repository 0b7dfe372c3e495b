/-! The instruction sent to the model. It names the two languages and nothing else varies. -/

namespace DocPipeline.Prompt

/-- The language of a document unless told otherwise. -/
def sourceLanguage : String := "English"

/-- The language documents are put into unless told otherwise. -/
def targetLanguage : String := "French"

/-- The instruction for a pair of languages. -/
def between (source target : String) : String :=
  "Translate the content of the following PDF from " ++ source ++ " to " ++ target
    ++ ". Maintain the original formatting and structure as much as possible. "
    ++ "Provide the translation in plain text format."

/-- The instruction for the usual pair of languages. -/
def standard : String :=
  between sourceLanguage targetLanguage

end DocPipeline.Prompt
