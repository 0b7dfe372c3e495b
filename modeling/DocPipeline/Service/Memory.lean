import DocPipeline.Files.Access
import DocPipeline.Service.Basic
import DocPipeline.Service.Form

/-! A service that is kept in memory. Its answers are fixed beforehand, and it remembers what it
was asked, also when the answer is a failure.
-/

namespace DocPipeline

/-- The answers that a service in memory gives. -/
structure Memory.Answers where
  created : Except Failure Unit
  /-- The name of every content that it takes. -/
  content : Except Failure String
  artifacts : Except Failure (List Artifact)

/-- A service in memory: what it was asked, and the states that it has yet to tell. -/
structure Memory where
  /-- The answers to the next questions for a status. The last one is given for ever. -/
  statuses : List (Except Failure Status)
  /-- The names of the graphs that were registered. -/
  graphs : List String
  /-- The graph, the file name and the content of each document. -/
  documents : List (String × String × Bytes)
  checks : Nat
  /-- The content, the graph and the policy of each question for artifacts. -/
  fetches : List (String × String × String)

namespace Memory

/-- A service that was not asked for anything yet. -/
def fresh (statuses : List (Except Failure Status)) : Memory :=
  ⟨statuses, [], [], 0, []⟩

/-- The next answer of a list whose last one is given for ever, and the answers after it. -/
def nextStatus
    : List (Except Failure Status) → Except Failure Status × List (Except Failure Status)
  | [] => (.ok .pending, [])
  | [last] => (last, [last])
  | first :: rest => (first, rest)

/-- A call that is remembered before it is answered. -/
def remember {α : Type} (note : Memory → Memory) (answer : Except Failure α)
    : Call Memory α :=
  ExceptT.mk fun outside => (answer, { outside with service := note outside.service })

/-- Tells the next status. -/
def status : Call Memory Status :=
  ExceptT.mk fun outside =>
    let (answer, rest) := nextStatus outside.service.statuses
    let memory := { outside.service with
      statuses := rest
      checks := outside.service.checks + 1 }
    (answer, { outside with service := memory })

/-- The service with these answers. -/
def service (answers : Answers) : Service Memory where
  create graph := remember (fun m => { m with graphs := m.graphs ++ [graph.name] }) answers.created
  upload graph path tree :=
    let content := (tree.read path).toOption.getD []
    remember
      (fun m => { m with documents := m.documents ++ [(graph, Form.fileName path, content)] })
      answers.content
  status _ := status
  fetch content graph policy :=
    remember (fun m => { m with fetches := m.fetches ++ [(content, graph, policy)] })
      answers.artifacts

end Memory
end DocPipeline
