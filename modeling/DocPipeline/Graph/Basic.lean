import DocPipeline.Prompt
import DocPipeline.Text.Blank
import DocPipeline.Text.Lowercase

/-! An extraction graph: a named list of policies, each of which binds an extractor to a model, a
credential and an instruction. Here are its parts, the graphs that come built in, and the ways
to look into a graph and to change it.
-/

namespace DocPipeline

/-- What an extractor is given, verbatim. -/
structure Params where
  model : String
  key : String
  prompt : String
deriving DecidableEq, Repr

/-- One step of a graph. -/
structure Policy where
  extractor : String
  name : String
  params : Params
  /-- The policy whose output is read; none reads the uploaded document. -/
  source : Option String
deriving DecidableEq, Repr

/-- A named pipeline of policies. -/
structure Graph where
  name : String
  description : Option String
  policies : List Policy
deriving DecidableEq, Repr

namespace Graph

/-- The name of the built-in graph. -/
def standardName : String := "pdf_translator"

/-- The name of the one policy of the built-in graph. -/
def standardPolicy : String := "pdf_to_french"

/-- The extractor that hands a document to a hosted model. -/
def standardExtractor : String := "tensorlake/openai"

/-- The model used unless another one is named. -/
def standardModel : String := "gpt-4o"

/-- What stands for the credential in a graph that has none yet. -/
def placeholderKey : String := "YOUR_OPENAI_API_KEY"

/-- The built-in graph: one policy with the usual instruction. -/
def standard (model key : String) : Graph where
  name := standardName
  description := none
  policies := [⟨standardExtractor, standardPolicy, ⟨model, key, Prompt.standard⟩, none⟩]

/-- The lowercase words of a language, joined by underscores. -/
def languageSlug (language : String) : String :=
  String.ofList
    (Text.lowercase (List.intercalate ['_'] (Text.words language.toList)))

/-- The slug of the language that the built-in graph already serves. -/
def standardSlug : String := "french"

/-- The graph for a target language. Graphs are known to the service by name, so each language
has its own.
-/
def forLanguage (language model key : String) : Graph :=
  let slug := languageSlug language
  if slug = standardSlug then standard model key
  else
    let prompt := Prompt.between Prompt.sourceLanguage (Text.trimmed language)
    { name := standardName ++ "_" ++ slug
      description := none
      policies := [⟨standardExtractor, "pdf_to_" ++ slug, ⟨model, key, prompt⟩, none⟩] }

/-- The first policy of that name. -/
def policy? (graph : Graph) (name : String) : Option Policy :=
  graph.policies.find? (·.name = name)

/-- The policy whose output is read back, which is the last one. -/
def outputPolicy? (graph : Graph) : Option Policy :=
  graph.policies.getLast?

/-- The graph with the parameters of every policy changed. -/
def mapParams (graph : Graph) (f : Params → Params) : Graph :=
  { graph with policies := graph.policies.map fun p => { p with params := f p.params } }

/-- The graph with one credential for all policies. -/
def withKey (graph : Graph) (key : String) : Graph :=
  graph.mapParams ({ · with key := key })

/-- The graph with one model for all policies. -/
def withModel (graph : Graph) (model : String) : Graph :=
  graph.mapParams ({ · with model := model })

end Graph
end DocPipeline
