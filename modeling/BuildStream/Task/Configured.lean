/-
# Configured tasks

A task declared in a configuration waits as long as it says, runs its tests one after the other,
and then reports what it is configured to report.  Tests that fail do not stop the ones after them,
but the task then fails, whatever it is configured to report.
-/
import BuildStream.Config
import BuildStream.Task

namespace BuildStream

/-! ## 1. Results -/

/-- The message of a configured task that failed. -/
def failedTaskMessage (path : TaskPath) : String := "Execution failed for task " ++ path

/-- A configured task that failed because of a cause. -/
def failedTask (path : TaskPath) (cause : String) : ActionResult :=
  .fails (.error ((ErrorChain.single cause).context (failedTaskMessage path)))

/-- The cause when tests failed. -/
def failedTestsMessage (failed total : Nat) : String :=
  Nat.repr failed ++ " of " ++ Nat.repr total ++ " tests failed"

namespace TaskOutcome

/-- The result of a configured outcome. -/
def result (path : TaskPath) : TaskOutcome → ActionResult
  | executed => .returns .executed
  | upToDate => .returns .upToDate
  | skipped reason => .returns (.skipped reason)
  | fail message => failedTask path message

end TaskOutcome

namespace TestConfig

/-- What a configured test does. -/
def action (t : TestConfig) : Action :=
  .finish <|
    match t.fail with
    | some message => .error message
    | none => .returns .executed

end TestConfig

namespace TaskConfig

/-! ## 2. Actions -/

/-- The end of a configured task after so many tests failed. -/
def ending (t : TaskConfig) (failed : Nat) : Action :=
  .finish <|
    if 0 < failed then failedTask t.path (failedTestsMessage failed t.tests.length)
    else t.outcome.result t.path

/-- The tests that are left, after so many failed. -/
def runTests (t : TaskConfig) (failed : Nat) : List TestConfig → Action
  | [] => t.ending failed
  | test :: tests =>
    .test test.name test.className test.action fun passed =>
      runTests t (if passed then failed else failed + 1) tests

/-- What a configured task does. -/
def action (t : TaskConfig) : Action := .work t.path t.durationMs.toNat (runTests t 0 t.tests)

/-- The task as it is registered. -/
def definition (t : TaskConfig) : TaskDefinition where
  path := t.path
  description := t.description
  dependsOn := t.dependsOn
  action := t.action

end TaskConfig

namespace Workspace

/-- The registry of a workspace. -/
def registry (w : Workspace) : Registry :=
  Registry.ofTasks (w.tasks.map TaskConfig.definition) w.defaultTasks

end Workspace

end BuildStream
