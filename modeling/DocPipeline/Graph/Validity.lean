import DocPipeline.Failure
import DocPipeline.Graph.Basic

/-! The rules that a graph must keep before the service sees it. `Graph.Valid` says what they
are; `Graph.validate` finds the first one that is broken.
-/

namespace DocPipeline.Graph

/-- A rule that a graph breaks, with what the report names. -/
inductive Violation where
  | emptyName
  | noPolicies (graph : String)
  | emptyPolicyName (graph : String)
  | emptyExtractor (policy : String)
  | repeatedName (policy : String)
  | unknownSource (policy source : String)
  | noKey (policy : String)
deriving DecidableEq, Repr

/-- The text in which a broken rule is reported. -/
def Violation.message : Violation → String
  | emptyName => "graph name is empty"
  | noPolicies graph => "graph '" ++ graph ++ "' has no extraction policies"
  | emptyPolicyName graph => "graph '" ++ graph ++ "' has a policy with an empty name"
  | emptyExtractor policy => "policy '" ++ policy ++ "' names no extractor"
  | repeatedName policy => "duplicate policy name '" ++ policy ++ "'"
  | unknownSource policy source =>
    "policy '" ++ policy ++ "' reads from unknown or later policy '" ++ source ++ "'"
  | noKey policy =>
    "policy '" ++ policy ++ "' has no API key (set OPENAI_API_KEY or pass --api-key)"

/-- A broken rule as a failure of the run. -/
def Violation.failure (violation : Violation) : Failure :=
  .graphRefused violation.message

/-- The names of policies in their order. -/
abbrev namesOf (policies : List Policy) : List String :=
  policies.map (·.name)

/-- Every policy has a name and an extractor, and no two have the same name. -/
structure WellNamed (policies : List Policy) : Prop where
  named : ∀ policy ∈ policies, Text.isEmptyTrimmed policy.name = false
  extractors : ∀ policy ∈ policies, Text.isEmptyTrimmed policy.extractor = false
  distinct : (namesOf policies).Nodup

/-- Wherever the policies are parted, the next one has no source or the name of one before it. -/
def ReadsBackward (policies : List Policy) : Prop :=
  ∀ front policy rest, policies = front ++ policy :: rest
    → ∀ source, policy.source = some source → source ∈ namesOf front

/-- The graph keeps all rules: it has a name and policies, these are well named, and each reads from
one before it or from the document.
-/
structure Valid (graph : Graph) : Prop where
  named : Text.isEmptyTrimmed graph.name = false
  nonempty : graph.policies ≠ []
  wellNamed : WellNamed graph.policies
  readsBackward : ReadsBackward graph.policies

/-- The first policy without a name or an extractor, or with a name used before. -/
def checkNames (graph : String) (seen : List String) : List Policy → Except Violation Unit
  | [] => .ok ()
  | policy :: rest =>
    if Text.isEmptyTrimmed policy.name then .error (.emptyPolicyName graph)
    else if Text.isEmptyTrimmed policy.extractor then .error (.emptyExtractor policy.name)
    else if policy.name ∈ seen then .error (.repeatedName policy.name)
    else checkNames graph (policy.name :: seen) rest

/-- The first policy whose source is not the name of a policy before it. -/
def checkSources (declared : List String) : List Policy → Except Violation Unit
  | [] => .ok ()
  | policy :: rest =>
    match policy.source with
    | some source =>
      if source ∈ declared then checkSources (policy.name :: declared) rest
      else .error (.unknownSource policy.name source)
    | none => checkSources (policy.name :: declared) rest

/-- The first rule that the graph breaks: names first, sources only when all names are good. -/
def validate (graph : Graph) : Except Violation Unit := do
  if Text.isEmptyTrimmed graph.name then throw .emptyName
  if graph.policies.isEmpty then throw (.noPolicies graph.name)
  checkNames graph.name [] graph.policies
  checkSources [] graph.policies

/-- A credential that the service can use: something is there, and not the placeholder. -/
def keyUsable (key : String) : Bool :=
  let bare := Text.trimmed key
  bare ≠ "" && bare ≠ placeholderKey

/-- The first policy without a usable credential. -/
def ensureCredentials (graph : Graph) : Except Violation Unit :=
  match graph.policies.find? fun p => !keyUsable p.params.key with
  | some policy => .error (.noKey policy.name)
  | none => .ok ()

end DocPipeline.Graph
