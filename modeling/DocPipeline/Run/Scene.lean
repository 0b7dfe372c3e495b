import DocPipeline.Document.Basic
import DocPipeline.Job.Wait
import DocPipeline.Service.Basic
import DocPipeline.Settings

/-! Where a run takes place: the tree of files, the outside, and a record of everything that was
asked and reported so far. A phase of a run works on all three and may fail.
-/

namespace DocPipeline

/-- Something asked of a service. -/
inductive Question where
  | create (graph : Graph)
  | upload (graph path : String)
  | status (content : String)
  | fetch (content graph policy : String)
deriving DecidableEq, Repr

/-- A report on the progress of a run. -/
inductive Event where
  /-- The document is there and has so many bytes. -/
  | inputReady (bytes : Nat)
  /-- The service has taken the document under a name. -/
  | submitted (content : String)
  /-- The check of this number returned a status. -/
  | checked (number : Nat) (status : Status)
  /-- The text is there and has so many characters. -/
  | complete (characters : Nat)
deriving DecidableEq, Repr

/-- A question, before it is answered, or a report to whoever listens. -/
inductive Moment where
  | asked (question : Question)
  | reported (listener : Listener) (event : Event)
deriving DecidableEq, Repr

/-- Where a run takes place. -/
structure Scene (σ : Type) where
  tree : Tree
  outside : Outside σ
  /-- Everything that was asked and reported, in order. -/
  moments : List Moment

/-- A part of a run. -/
abbrev Phase (σ α : Type) := ExceptT Failure (StateM (Scene σ)) α

namespace Phase

/-- What a phase returns and leaves behind. -/
def outcome {σ α : Type} (phase : Phase σ α) (scene : Scene σ)
    : Except Failure α × Scene σ :=
  phase.run.run scene

/-- A phase that only decides. -/
def purely {σ α : Type} (result : Except Failure α) : Phase σ α :=
  ExceptT.mk (pure result)

/-- Looks at the tree. -/
def examine {σ α : Type} (look : Tree → Except Failure α) : Phase σ α :=
  ExceptT.mk fun scene => (look scene.tree, scene)

/-- Puts moments on record. -/
def record {σ : Type} (moments : List Moment) : Phase σ Unit :=
  ExceptT.mk fun scene => (.ok (), { scene with moments := scene.moments ++ moments })

/-- Reports an event to the listener, if there is one. -/
def report {σ : Type} (listener : Option Listener) (event : Event) : Phase σ Unit :=
  match listener with
  | some who => record [.reported who event]
  | none => pure ()

/-- Asks the service. -/
def consult {σ α : Type} (question : Question) (call : Call σ α) : Phase σ α := do
  record [.asked question]
  ExceptT.mk fun scene =>
    let (result, outside) := call.outcome scene.outside
    (result, { scene with outside := outside })

/-- The moments of a check: the question, and the status if one was returned. -/
def momentsOf (listener : Option Listener) (content : String) (check : Check) : List Moment :=
  .asked (.status content) ::
    match check.answer with
    | .ok status => listener.toList.map fun who => .reported who (.checked check.number status)
    | .error _ => []

/-- Waits for the job on a content. -/
def wait {σ : Type} (clock : Clock) (schedule : Schedule) (listener : Option Listener)
    (content : String) (status : Call σ Status) : Phase σ Nat :=
  ExceptT.mk fun scene =>
    let wait := Wait.run clock schedule content status.outcome none scene.outside
    let moments := wait.checks.flatMap (momentsOf listener content)
    (wait.result.getD (.error (.internal "the wait was given up")),
      { scene with outside := wait.state, moments := scene.moments ++ moments })

end Phase
end DocPipeline
