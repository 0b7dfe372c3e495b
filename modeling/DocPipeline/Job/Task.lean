import DocPipeline.Job.Status

/-! The tasks that the service has scheduled for a document. Their outcomes together are the state
of the job.
-/

namespace DocPipeline

/-- What has become of a task. -/
inductive Outcome where
  | unknown | success | failed
deriving DecidableEq, Repr

/-- A unit of work on a document. -/
structure Task where
  id : String
  policy : String
  outcome : Outcome
deriving DecidableEq, Repr

namespace Outcome

/-- The name of an outcome. -/
def name : Outcome → String
  | unknown => "Unknown"
  | success => "Success"
  | failed => "Failed"

/-- The outcome of that name. -/
def ofName? (name : String) : Option Outcome :=
  [unknown, success, failed].find? (·.name = name)

/-- An outcome is given by its name, alone or as the key of nothing. -/
def ofJson : Json → Option Outcome
  | .string s => s.bind ofName?
  | .object [(key, .null)] => key.bind ofName?
  | _ => none

end Outcome

namespace Task

/-- A task as the service describes it. -/
def ofJson (json : Json) : Option Task := do
  match ← Json.Decode.slots ["id", "extraction_policy_id", "outcome"] json with
  | [id, policy, outcome] =>
    let id ← Json.Decode.required Json.Decode.text id
    let policy ← Json.Decode.withDefault "" Json.Decode.text policy
    let outcome ← Json.Decode.withDefault .unknown Outcome.ofJson outcome
    return ⟨id, policy, outcome⟩
  | _ => none

/-- Why a job with this failed task has failed. -/
def failureReason (task : Task) : String :=
  "task '" ++ task.id ++ "' of policy '" ++ task.policy ++ "' failed"

end Task

/-- The state of a job: failed with its first failed task, completed when there are tasks and all
have succeeded, pending otherwise.
-/
def Status.ofTasks (tasks : List Task) : Status :=
  match tasks.find? (·.outcome = .failed) with
  | some task => .failed task.failureReason
  | none =>
    if !tasks.isEmpty && tasks.all (·.outcome = .success) then .completed else .pending

end DocPipeline
