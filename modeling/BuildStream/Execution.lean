/-
# Runs and their hooks

Every build, task and test that is run has a stamp of its own and refers to the run around it.
What happens to a run is told by hooks: one before it, and one after it with a snapshot of how it
ended.  A snapshot keeps what the run said apart from how that is reported; `result?` makes the
result that is reported.
-/
import BuildStream.Descriptor
import BuildStream.Result
import BuildStream.Task

namespace BuildStream

/-! ## 1. Runs -/

/-- One run of a build. -/
structure BuildRun where
  stamp : Stamp
deriving DecidableEq, Repr

/-- One run of a task in a build. -/
structure TaskRun where
  stamp : Stamp
  path : TaskPath
  description : Option String
  build : BuildRun
deriving DecidableEq, Repr

/-- One run of a test in a task. -/
structure TestRun where
  stamp : Stamp
  name : String
  className : Option String
  task : TaskRun
deriving DecidableEq, Repr

namespace BuildRun

/-- The id of the run. -/
def id (b : BuildRun) : OperationId := .ofStamp .build b.stamp

/-- What events tell about the run. -/
def descriptor (b : BuildRun) : Descriptor := .ofBuild b.id

end BuildRun

namespace TaskRun

/-- The id of the run. -/
def id (t : TaskRun) : OperationId := .ofStamp .task t.stamp

/-- What events tell about the run. -/
def descriptor (t : TaskRun) : Descriptor := .ofTask t.id t.path t.description (some t.build.id)

end TaskRun

namespace TestRun

/-- The id of the run. -/
def id (t : TestRun) : OperationId := .ofStamp .test t.stamp

/-- What events tell about the run. -/
def descriptor (t : TestRun) : Descriptor := .ofTest t.id t.name t.className (some t.task.id)

end TestRun

/-! ## 2. How runs end -/

/-- How a run of a task or a test ended. -/
structure RunState where
  startTime : Timestamp
  endTime : Timestamp
  upToDate : Bool := false
  skipMessage : Option String := none
  failure : Option Fault := none
deriving DecidableEq, Repr

namespace RunState

/-- The snapshot of what an action returned. -/
def ofReturned (startTime endTime : Timestamp) : Except Fault ActionOutcome → RunState
  | .ok .executed => { startTime, endTime }
  | .ok .upToDate => { startTime, endTime, upToDate := true }
  | .ok (.skipped reason) => { startTime, endTime, skipMessage := some reason }
  | .error fault => { startTime, endTime, failure := some fault }

/-- The snapshot of how an action ended. -/
def ofResult (startTime endTime : Timestamp) (result : ActionResult) : RunState :=
  ofReturned startTime endTime result.guarded

/-- Whether the run failed. -/
def isFailed (s : RunState) : Bool := s.failure.isSome

/-- How the run is reported: as up to date, skipped, failed or successful, the first that applies.
There is no answer if the text of its error is needed and cannot be rendered. -/
def ending? (s : RunState) : Option Ending :=
  if s.upToDate then some (.success true)
  else
    match s.skipMessage, s.failure with
    | some reason, _ => some (.skipped reason)
    | none, some (.error chain) => some (.failed [Failure.ofError chain])
    | none, some .unrenderable => none
    | none, none => some (.success false)

/-- The result that is reported, if there is one. -/
def result? (s : RunState) : Option OperationResult :=
  s.ending?.map fun ending => ⟨s.startTime, s.endTime, ending⟩

end RunState

/-- How a build ended. -/
structure BuildState where
  startTime : Timestamp
  endTime : Timestamp
  /-- Whether cancellation was observed. -/
  cancelled : Bool
  failures : List Failure
deriving Repr

namespace BuildState

/-- How the build is reported. -/
def ending (s : BuildState) : Ending :=
  if s.cancelled then .cancelled
  else if s.failures.isEmpty then .success false
  else .failed s.failures

/-- The result that is reported. -/
def result (s : BuildState) : OperationResult := ⟨s.startTime, s.endTime, s.ending⟩

end BuildState

/-! ## 3. Hooks -/

/-- What happens to a run. -/
inductive Hook where
  | beforeBuild (b : BuildRun)
  | afterBuild (b : BuildRun) (state : BuildState)
  | beforeTask (t : TaskRun)
  | afterTask (t : TaskRun) (state : RunState)
  | beforeTest (t : TestRun)
  | afterTest (t : TestRun) (state : RunState)
deriving Repr

end BuildStream
