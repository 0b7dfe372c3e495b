import DocPipeline.Job.Task
import Mathlib.Data.List.Forall2

/-! The state of a job as its tasks go on. The state is told by the outcomes of all tasks together,
whatever order they are listed in, and once they have settled it no later outcome changes it.
-/

namespace DocPipeline

-----------------------------------------------------------------------------------------
-- What the tasks say
-----------------------------------------------------------------------------------------

namespace Status

variable {tasks others : List Task}

/-- The first failed task gives the reason, whatever the tasks behind it are. -/
theorem ofTasks_eq_failed_iff {reason : String}
    : ofTasks tasks = .failed reason
      ↔ ∃ front task rest, tasks = front ++ task :: rest ∧ task.outcome = .failed
          ∧ (∀ earlier ∈ front, earlier.outcome ≠ .failed) ∧ reason = task.failureReason := by
  unfold ofTasks
  cases found : tasks.find? (·.outcome = .failed) with
  | none =>
      rw [List.find?_eq_none] at found
      constructor
      · dsimp only
        split <;> nofun
      · rintro ⟨front, task, rest, rfl, fails, _⟩
        exact absurd (decide_eq_true fails) (found task (by simp))
  | some first =>
      obtain ⟨fails, front, rest, parted, earlier⟩ := List.find?_eq_some_iff_append.mp found
      constructor
      · intro told
        exact ⟨front, first, rest, parted, by simpa using fails, by simpa using earlier,
          (Status.failed.inj told).symm⟩
      · rintro ⟨before, task, behind, same, also, none, rfl⟩
        have again : tasks.find? (·.outcome = .failed) = some task :=
          List.find?_eq_some_iff_append.mpr
            ⟨by simpa using also, before, behind, same, by simpa using none⟩
        obtain rfl : first = task := Option.some.inj (found.symm.trans again)
        rfl

theorem ofTasks_of_none_failed (none : ∀ task ∈ tasks, task.outcome ≠ .failed)
    : ofTasks tasks
      = if tasks ≠ [] ∧ ∀ task ∈ tasks, task.outcome = .success then .completed
        else .pending := by
  have absent : tasks.find? (·.outcome = .failed) = .none := by
    simpa [List.find?_eq_none] using none
  unfold ofTasks
  rw [absent]
  simp

theorem exists_failed_iff
    : (∃ reason, ofTasks tasks = .failed reason) ↔ ∃ task ∈ tasks, task.outcome = .failed := by
  constructor
  · rintro ⟨reason, told⟩
    obtain ⟨front, task, rest, rfl, fails, _⟩ := ofTasks_eq_failed_iff.mp told
    exact ⟨task, by simp, fails⟩
  · rintro ⟨task, member, fails⟩
    by_contra unfailed
    have found : ∃ first, tasks.find? (·.outcome = .failed) = some first := by
      rw [← Option.isSome_iff_exists, List.find?_isSome]
      exact ⟨task, member, by simpa using fails⟩
    obtain ⟨first, found⟩ := found
    exact unfailed ⟨first.failureReason, by simp only [ofTasks, found]⟩

/-- Tasks of which none has failed do not tell a failure. -/
theorem none_failed_iff
    : (∀ reason, ofTasks tasks ≠ .failed reason) ↔ ∀ task ∈ tasks, task.outcome ≠ .failed := by
  have failed := not_congr (@exists_failed_iff tasks)
  push Not at failed
  exact failed

theorem ofTasks_eq_completed_iff
    : ofTasks tasks = .completed ↔ tasks ≠ [] ∧ ∀ task ∈ tasks, task.outcome = .success := by
  constructor
  · intro told
    have none : ∀ task ∈ tasks, task.outcome ≠ .failed :=
      none_failed_iff.mp fun reason failed => nomatch told.symm.trans failed
    rw [ofTasks_of_none_failed none] at told
    by_contra unsettled
    rw [if_neg unsettled] at told
    cases told
  · rintro ⟨several, all⟩
    have none : ∀ task ∈ tasks, task.outcome ≠ .failed := by
      intro task member
      rw [all task member]
      nofun
    rw [ofTasks_of_none_failed none, if_pos ⟨several, all⟩]

theorem ofTasks_eq_pending_iff
    : ofTasks tasks = .pending
      ↔ (∀ task ∈ tasks, task.outcome ≠ .failed)
        ∧ ¬(tasks ≠ [] ∧ ∀ task ∈ tasks, task.outcome = .success) := by
  constructor
  · intro told
    have none : ∀ task ∈ tasks, task.outcome ≠ .failed :=
      none_failed_iff.mp fun reason failed => nomatch told.symm.trans failed
    rw [ofTasks_of_none_failed none] at told
    refine ⟨none, fun settled => ?_⟩
    rw [if_pos settled] at told
    cases told
  · rintro ⟨none, unsettled⟩
    rw [ofTasks_of_none_failed none, if_neg unsettled]

-----------------------------------------------------------------------------------------
-- Tasks taken together
-----------------------------------------------------------------------------------------

/-- The state of a job in two parts, from the states of the parts and from which of them have no
tasks. A failure of the first part goes before one of the second, and a part without tasks leaves
the state to the other.
-/
def together (noneLeft noneRight : Bool) : Status → Status → Status
  | .failed reason, _ => .failed reason
  | _, .failed reason => .failed reason
  | left, right =>
    if noneLeft then right
    else if noneRight then left
    else if left = .completed ∧ right = .completed then .completed
    else .pending

/-- A failure in the first part is the first failure of the whole. -/
theorem ofTasks_append_of_failed {reason : String} (failed : ofTasks tasks = .failed reason)
    (others : List Task) : ofTasks (tasks ++ others) = .failed reason := by
  obtain ⟨front, task, rest, rfl, fails, earlier, same⟩ := ofTasks_eq_failed_iff.mp failed
  exact ofTasks_eq_failed_iff.mpr ⟨front, task, rest ++ others, by simp, fails, earlier, same⟩

/-- A failure in the second part is the first failure of the whole if the first part has none. -/
theorem ofTasks_append_of_none_failed {reason : String}
    (none : ∀ task ∈ tasks, task.outcome ≠ .failed) (failed : ofTasks others = .failed reason)
    : ofTasks (tasks ++ others) = .failed reason := by
  obtain ⟨front, task, rest, rfl, fails, earlier, same⟩ := ofTasks_eq_failed_iff.mp failed
  exact ofTasks_eq_failed_iff.mpr ⟨tasks ++ front, task, rest, by simp, fails,
    List.forall_mem_append.mpr ⟨none, earlier⟩, same⟩

/-- Two parts with tasks, of which none has failed, have succeeded exactly if both have. -/
theorem ofTasks_append_of_unfailed (left : tasks ≠ []) (right : others ≠ [])
    (none : ∀ task ∈ tasks, task.outcome ≠ .failed)
    (noneToo : ∀ task ∈ others, task.outcome ≠ .failed)
    : ofTasks (tasks ++ others)
      = if ofTasks tasks = .completed ∧ ofTasks others = .completed then .completed
        else .pending := by
  rw [ofTasks_of_none_failed (List.forall_mem_append.mpr ⟨none, noneToo⟩)]
  congr 1
  simp only [ofTasks_eq_completed_iff, List.forall_mem_append, ne_eq,
    List.append_eq_nil_iff, left, right, not_false_eq_true, true_and, and_false]

/-- The state of the whole is told by the states of its parts, by cases on which of them have tasks
and which have failed.
-/
theorem ofTasks_append (tasks others : List Task)
    : ofTasks (tasks ++ others)
      = together tasks.isEmpty others.isEmpty (ofTasks tasks) (ofTasks others) := by
  rcases eq_or_ne tasks [] with rfl | left
  · rw [List.nil_append]
    cases ofTasks others <;> rfl
  rcases eq_or_ne others [] with rfl | right
  · rw [List.append_nil, List.isEmpty_eq_false_iff.mpr left]
    cases ofTasks tasks <;> rfl
  rw [List.isEmpty_eq_false_iff.mpr left, List.isEmpty_eq_false_iff.mpr right]
  cases first : ofTasks tasks with
  | failed reason => exact ofTasks_append_of_failed first others
  | pending | completed =>
      have none : ∀ task ∈ tasks, task.outcome ≠ .failed :=
        none_failed_iff.mp fun reason failed => nomatch first.symm.trans failed
      cases second : ofTasks others with
      | failed reason => exact ofTasks_append_of_none_failed none second
      | pending | completed =>
          have noneToo : ∀ task ∈ others, task.outcome ≠ .failed :=
            none_failed_iff.mp fun reason failed => nomatch second.symm.trans failed
          rw [ofTasks_append_of_unfailed left right none noneToo, first, second]
          rfl

-----------------------------------------------------------------------------------------
-- Tasks in another order
-----------------------------------------------------------------------------------------

/-- The state without the reason of a failure. -/
def withoutReason : Status → Status
  | .failed _ => .failed ""
  | status => status

/-- Which tasks there are tells the state up to its reason, and not their order or number. -/
theorem withoutReason_ofTasks_congr (same : ∀ task, task ∈ tasks ↔ task ∈ others)
    : (ofTasks tasks).withoutReason = (ofTasks others).withoutReason := by
  have none_iff : tasks = [] ↔ others = [] := by
    simp only [List.eq_nil_iff_forall_not_mem, same]
  cases told : ofTasks tasks with
  | pending =>
      rw [ofTasks_eq_pending_iff, Ne] at told
      simp only [same, none_iff] at told
      rw [ofTasks_eq_pending_iff.mpr told]
  | completed =>
      rw [ofTasks_eq_completed_iff, Ne] at told
      simp only [same, none_iff] at told
      rw [ofTasks_eq_completed_iff.mpr told]
  | failed reason =>
      obtain ⟨task, member, fails⟩ := exists_failed_iff.mp ⟨reason, told⟩
      obtain ⟨other, told⟩ := exists_failed_iff.mpr ⟨task, (same task).mp member, fails⟩
      rw [told]
      rfl

theorem withoutReason_eq_completed_iff {status : Status}
    : status.withoutReason = .completed ↔ status = .completed := by
  cases status <;> simp [withoutReason]

end Status

-----------------------------------------------------------------------------------------
-- Tasks that go on
-----------------------------------------------------------------------------------------

/-- An outcome stays as it is, or turns from unknown into one of the other two. -/
inductive Outcome.GoesOn : Outcome → Outcome → Prop
  | stays (outcome : Outcome) : GoesOn outcome outcome
  | succeeds : GoesOn .unknown .success
  | fails : GoesOn .unknown .failed

theorem Outcome.GoesOn.eq_of_known {outcome later : Outcome} (go : outcome.GoesOn later)
    (known : outcome ≠ .unknown) : later = outcome := by
  cases go with
  | stays => rfl
  | succeeds | fails => exact absurd rfl known

/-- The same task with an outcome that has gone on. -/
structure Task.GoesOn (task later : Task) : Prop where
  id : later.id = task.id
  policy : later.policy = task.policy
  outcome : task.outcome.GoesOn later.outcome

/-- The same tasks some time later, each of which has gone on. None has come or gone, and they may
be listed in another order.
-/
def Task.GoOn (tasks later : List Task) : Prop :=
  ∃ moved, List.Forall₂ Task.GoesOn tasks moved ∧ moved.Perm later

namespace Status

variable {tasks later : List Task}

/-- Tasks that have all succeeded stay as they are; by induction on the tasks. -/
theorem success_of_goesOn (go : List.Forall₂ Task.GoesOn tasks later)
    (all : ∀ task ∈ tasks, task.outcome = .success)
    : ∀ task ∈ later, task.outcome = .success := by
  induction go with
  | nil => exact all
  | @cons task moved tasks later first _ ih =>
      obtain ⟨succeeded, others⟩ := List.forall_mem_cons.mp all
      refine List.forall_mem_cons.mpr ⟨?_, ih others⟩
      rw [first.outcome.eq_of_known (by simp [succeeded]), succeeded]

/-- A task that has failed stays so; by induction on the tasks. -/
theorem failed_of_goesOn (go : List.Forall₂ Task.GoesOn tasks later)
    (some : ∃ task ∈ tasks, task.outcome = .failed)
    : ∃ task ∈ later, task.outcome = .failed := by
  induction go with
  | nil => exact some
  | @cons task moved tasks later first _ ih =>
      rw [List.exists_mem_cons_iff] at some ⊢
      refine some.imp (fun failed => ?_) ih
      rw [first.outcome.eq_of_known (by simp [failed]), failed]

/-- One step: what has completed stays completed. -/
theorem completed_of_goOn (go : Task.GoOn tasks later) (completed : ofTasks tasks = .completed)
    : ofTasks later = .completed := by
  obtain ⟨moved, each, order⟩ := go
  obtain ⟨several, all⟩ := ofTasks_eq_completed_iff.mp completed
  have settled : ofTasks moved = .completed := by
    refine ofTasks_eq_completed_iff.mpr ⟨?_, success_of_goesOn each all⟩
    rintro rfl
    cases each
    exact several rfl
  have same := withoutReason_ofTasks_congr fun _ => order.mem_iff
  rw [settled] at same
  exact withoutReason_eq_completed_iff.mp same.symm

/-- One step: what has failed stays failed, if for another reason. -/
theorem failed_of_goOn (go : Task.GoOn tasks later)
    (failed : ∃ reason, ofTasks tasks = .failed reason)
    : ∃ reason, ofTasks later = .failed reason := by
  obtain ⟨moved, each, order⟩ := go
  obtain ⟨task, member, fails⟩ := failed_of_goesOn each (exists_failed_iff.mp failed)
  exact exists_failed_iff.mpr ⟨task, order.mem_iff.mp member, fails⟩

/-- Whatever one step of the tasks keeps is kept from then on; by induction on the steps. -/
theorem kept_from (Keeps : Status → Prop) {history : Nat → List Task}
    (goes : ∀ n, Task.GoOn (history n) (history (n + 1)))
    (step
      : ∀ {tasks later}, Task.GoOn tasks later → Keeps (ofTasks tasks) → Keeps (ofTasks later))
    {first later : Nat} (order : first ≤ later) (now : Keeps (ofTasks (history first)))
    : Keeps (ofTasks (history later)) := by
  induction order with
  | refl => exact now
  | step _ ih => exact step (goes _) ih

/-- The state of a job is failed exactly if a task has failed, for the reason that the first such
task gives, completed exactly if there are tasks and all have succeeded, and pending otherwise. The
states of two parts of the tasks tell that of the whole, the order of the tasks changes at most the
reason, and a job whose tasks go on stays completed or failed once it is.
-/
theorem ofTasks_settles
    : (∀ tasks,
        ((∃ reason, ofTasks tasks = .failed reason) ↔ ∃ task ∈ tasks, task.outcome = .failed)
        ∧ (∀ front task rest, tasks = front ++ task :: rest → task.outcome = .failed
            → (∀ earlier ∈ front, earlier.outcome ≠ .failed)
            → ofTasks tasks
              = .failed ("task '" ++ task.id ++ "' of policy '" ++ task.policy ++ "' failed"))
        ∧ (ofTasks tasks = .completed ↔ tasks ≠ [] ∧ ∀ task ∈ tasks, task.outcome = .success)
        ∧ (ofTasks tasks = .pending
            ↔ (∀ task ∈ tasks, task.outcome ≠ .failed)
              ∧ ¬(tasks ≠ [] ∧ ∀ task ∈ tasks, task.outcome = .success)))
      ∧ (∀ tasks others,
          ofTasks (tasks ++ others)
            = together tasks.isEmpty others.isEmpty (ofTasks tasks) (ofTasks others))
      ∧ (∀ tasks others, tasks.Perm others
          → (ofTasks tasks).withoutReason = (ofTasks others).withoutReason)
      ∧ ∀ history : Nat → List Task, (∀ n, Task.GoOn (history n) (history (n + 1)))
          → ∀ first later, first ≤ later
            → (ofTasks (history first) = .completed → ofTasks (history later) = .completed)
              ∧ ((∃ reason, ofTasks (history first) = .failed reason)
                → ∃ reason, ofTasks (history later) = .failed reason) := by
  refine ⟨?_, ofTasks_append, ?_, ?_⟩
  · intro tasks
    refine ⟨exists_failed_iff, ?_, ofTasks_eq_completed_iff, ofTasks_eq_pending_iff⟩
    intro front task rest parted fails earlier
    exact ofTasks_eq_failed_iff.mpr ⟨front, task, rest, parted, fails, earlier, rfl⟩
  · intro tasks others order
    exact withoutReason_ofTasks_congr fun _ => order.mem_iff
  · intro history goes first later order
    exact ⟨kept_from (· = .completed) goes completed_of_goOn order,
      kept_from (fun status => ∃ reason, status = .failed reason) goes failed_of_goOn order⟩

/-- Two tasks of which the first one succeeds after the other, and is then listed behind it. -/
def twoTasks : Nat → List Task
  | 0 => [⟨"a", "p", .unknown⟩, ⟨"b", "p", .success⟩]
  | _ + 1 => [⟨"b", "p", .success⟩, ⟨"a", "p", .success⟩]

/-- The job of the two tasks is pending, and completed from the first step on. Beside a task that
has succeeded, the first of two that have failed gives the reason, and listed the other way round
they still make a failure.
-/
theorem ofTasks_settles_of_two
    : (∀ n, Task.GoOn (twoTasks n) (twoTasks (n + 1)))
      ∧ ofTasks (twoTasks 0) = .pending
      ∧ (∀ n, 1 ≤ n → ofTasks (twoTasks n) = .completed)
      ∧ ofTasks [⟨"a", "p", .success⟩, ⟨"b", "p", .failed⟩, ⟨"c", "q", .failed⟩]
        = .failed "task 'b' of policy 'p' failed"
      ∧ (ofTasks [⟨"c", "q", .failed⟩, ⟨"b", "p", .failed⟩]).withoutReason
        = (ofTasks [⟨"b", "p", .failed⟩, ⟨"c", "q", .failed⟩]).withoutReason := by
  obtain ⟨each, _, orderless, stays⟩ := ofTasks_settles
  have goes : ∀ n, Task.GoOn (twoTasks n) (twoTasks (n + 1)) := by
    intro n
    cases n with
    | zero =>
        exact ⟨[⟨"a", "p", .success⟩, ⟨"b", "p", .success⟩],
          .cons ⟨rfl, rfl, .succeeds⟩ (.cons ⟨rfl, rfl, .stays _⟩ .nil), .swap _ _ _⟩
    | succ n =>
        exact ⟨twoTasks (n + 1),
          .cons ⟨rfl, rfl, .stays _⟩ (.cons ⟨rfl, rfl, .stays _⟩ .nil), .refl _⟩
  refine ⟨goes, by decide, ?_, ?_, ?_⟩
  · intro n order
    exact (stays twoTasks goes 1 n order).1 (by decide)
  · exact (each _).2.1 [⟨"a", "p", .success⟩] ⟨"b", "p", .failed⟩ [⟨"c", "q", .failed⟩] rfl rfl
      (by decide)
  · exact orderless _ _ (.swap _ _ _)

end Status
end DocPipeline
