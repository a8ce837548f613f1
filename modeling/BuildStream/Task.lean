/-
# Tasks

What a task does is a program of a few steps: it may ask whether cancellation was requested,
request it, wait, run tests inside the task, and finish with a result.  What comes after a question
or a test may depend on the answer, so an `Action` is a tree that branches on answers.

A registry holds tasks in the order in which they were declared, one for each path.
-/
import BuildStream.Failure
import BuildStream.TaskPath

namespace BuildStream

/-! ## 1. Results of actions -/

/-- What an action reports when it returns normally. -/
inductive ActionOutcome where
  | executed
  | upToDate
  | skipped (reason : String)
deriving DecidableEq, Repr

/-- How an action ends. -/
inductive ActionResult where
  | returns (outcome : ActionOutcome)
  | fails (fault : Fault)
  | panics (payload : PanicPayload)
deriving DecidableEq, Repr

namespace ActionResult

/-- The result with a panic turned into an error. -/
def guarded : ActionResult → Except Fault ActionOutcome
  | returns outcome => .ok outcome
  | fails fault => .error fault
  | panics payload => .error (.error (.single ("action panicked: " ++ payload.message)))

/-- An error with one message. -/
def error (message : String) : ActionResult := .fails (.error (.single message))

end ActionResult

/-! ## 2. Actions -/

/-- What a task or a test does. -/
inductive Action where
  | finish (result : ActionResult)
  /-- Asks whether cancellation was requested. -/
  | poll (next : Bool → Action)
  /-- Requests cancellation. -/
  | cancel (next : Action)
  /-- Waits some milliseconds. -/
  | pause (millis : Nat) (next : Action)
  /-- Runs a test, and goes on knowing whether it did not fail. -/
  | test (name : String) (className : Option String) (body : Action) (next : Bool → Action)

namespace Action

/-- Does nothing and succeeds. -/
def execute : Action := .finish (.returns .executed)

/-- How long a wait goes on without asking for cancellation, in milliseconds. -/
def pollInterval : Nat := 10

/-- Waits so many intervals, giving up with a result when cancellation is requested. -/
def waitIntervals (interrupted : ActionResult) (next : Action) : Nat → Action
  | 0 => next
  | n + 1 =>
    .poll fun requested =>
      if requested then .finish interrupted
      else .pause pollInterval (waitIntervals interrupted next n)

/-- Waits some milliseconds, giving up with a result when cancellation is requested. -/
def wait (interrupted : ActionResult) (millis : Nat) (next : Action) : Action :=
  let rest := millis % pollInterval
  let last : Action :=
    if rest = 0 then next
    else .poll fun requested => if requested then .finish interrupted else .pause rest next
  waitIntervals interrupted last (millis / pollInterval)

/-- The error of a task that was interrupted while it waited. -/
def interruptedMessage (path : TaskPath) : String := "Task " ++ path ++ " was interrupted"

/-- Waits as a task, which fails when it is interrupted. -/
def work (path : TaskPath) (millis : Nat) (next : Action) : Action :=
  wait (.error (interruptedMessage path)) millis next

end Action

/-! ## 3. Definitions and the registry -/

/-- A task as it is registered. -/
structure TaskDefinition where
  path : TaskPath
  description : Option String := none
  dependsOn : List TaskPath := []
  action : Action := .execute

/-- The tasks of an engine, in the order of their declaration. -/
structure Registry where
  tasks : List TaskDefinition := []
  defaultTasks : List String := []
  /-- There is at most one task for a path. -/
  nodup : (tasks.map (·.path)).Nodup := by simp

namespace Registry

/-- Puts a task in the place of the one with its path, or at the end. -/
def place (task : TaskDefinition) : List TaskDefinition → List TaskDefinition
  | [] => [task]
  | t :: ts => if t.path = task.path then task :: ts else t :: place task ts

theorem mem_paths_place {task : TaskDefinition} {path : TaskPath} (ts : List TaskDefinition) :
    path ∈ (place task ts).map (·.path) ↔ path = task.path ∨ path ∈ ts.map (·.path) := by
  induction ts with
  | nil => simp [place]
  | cons t ts ih =>
    unfold place
    split
    · next h => simp [h]
    · simp only [List.map_cons, List.mem_cons, ih, or_left_comm]

theorem nodup_place {task : TaskDefinition} {ts : List TaskDefinition}
    (h : (ts.map (·.path)).Nodup) : ((place task ts).map (·.path)).Nodup := by
  induction ts with
  | nil => simp [place]
  | cons t ts ih =>
    have ht : t.path ∉ ts.map (·.path) := (List.nodup_cons.1 h).1
    have hts := (List.nodup_cons.1 h).2
    unfold place
    split
    · next he =>
      rw [he] at ht
      exact List.nodup_cons.2 ⟨ht, hts⟩
    · next he =>
      refine List.nodup_cons.2 ⟨fun hm => ?_, ih hts⟩
      rcases (mem_paths_place ts).1 hm with hm | hm
      · exact he hm
      · exact ht hm

/-- Registers a task, replacing one with its path. -/
def register (r : Registry) (task : TaskDefinition) : Registry where
  tasks := place task r.tasks
  defaultTasks := r.defaultTasks
  nodup := nodup_place r.nodup

/-- The registry of tasks registered one after the other. -/
def ofTasks (tasks : List TaskDefinition) (defaultTasks : List String) : Registry :=
  { tasks.foldl register {} with defaultTasks }

/-- The task of a path. -/
def get? (r : Registry) (path : TaskPath) : Option TaskDefinition :=
  r.tasks.find? fun t => t.path == path

/-- Whether a path is registered. -/
def contains (r : Registry) (path : TaskPath) : Bool := (r.get? path).isSome

/-- The tasks of a name in any project. -/
def named (r : Registry) (name : String) : List TaskDefinition :=
  r.tasks.filter fun t => TaskPath.name t.path == name

/-- The registered paths, in order. -/
def paths (r : Registry) : List TaskPath := r.tasks.map (·.path)

end Registry

end BuildStream
