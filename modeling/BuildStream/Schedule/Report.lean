/-
# Reports of tasks

How a planned task ended, as the schedule reports it.  Here a failure comes first: a run is only up
to date, skipped or successful if it did not fail.
-/
import BuildStream.Execution

namespace BuildStream

/-- How a planned task ended. -/
inductive TaskStatus where
  | success
  | upToDate
  | skipped (reason : String)
  | failed (message : String)
  /-- It never started. -/
  | notRun
deriving DecidableEq, Repr

namespace TaskStatus

/-- Whether the tasks that depend on it may run. -/
def isSuccess : TaskStatus → Bool
  | success => true
  | upToDate => true
  | skipped _ => true
  | failed _ => false
  | notRun => false

/-- The status of a run that did not fail. -/
def ofUnfailed (s : RunState) : TaskStatus :=
  if s.upToDate then upToDate
  else
    match s.skipMessage with
    | some reason => skipped reason
    | none => success

end TaskStatus

/-- The report of a planned task. -/
structure TaskReport where
  path : TaskPath
  status : TaskStatus
  failure : Option Failure := none
  millis : Nat := 0
deriving Repr

namespace TaskReport

/-- A task that never started. -/
def notRun (path : TaskPath) : TaskReport := { path, status := .notRun }

/-- A task whose worker ended before it could report, with the words for that. -/
def lost (path : TaskPath) (words : String) : TaskReport where
  path := path
  status := .failed ("Task worker failed: " ++ words)
  failure := some (.ofMessage ("Task " ++ path ++ " did not complete: " ++ words))

/-- The report of a run; there is none if the text of its error cannot be rendered. -/
def ofState? (path : TaskPath) (millis : Nat) (s : RunState) : Option TaskReport :=
  match s.failure with
  | some .unrenderable => none
  | some (.error chain) =>
    some { path, status := .failed chain.line, failure := some (Failure.ofError chain), millis }
  | none => some { path, status := .ofUnfailed s, millis }

end TaskReport

end BuildStream
