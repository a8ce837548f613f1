/-
# Configuration

What a configuration file may say: parameters of the connection, defaults of every build, and the
workspace of tasks that the engine serves.  Every field but a task's path and a test's name has a
default.
-/
import BuildStream.IdleTimeout
import BuildStream.TaskPath

namespace BuildStream

/-- Parameters shared by every request of one connection.  They are relayed to the engine
without being interpreted. -/
structure ConnectionParameters where
  verboseLogging : Bool := false
  userHomeDir : Option String := none
  projectDir : Option String := none
  searchUpwards : Option Bool := none
  embedded : Option Bool := none
  daemonMaxIdle : Option IdleTimeout := none
  daemonBaseDir : Option String := none
deriving DecidableEq, Repr

/-- Settings of a build that the caller does not override. -/
structure BuildDefaults where
  javaHome : Option String := none
  jvmArguments : List String := []
  arguments : List String := []
  colorOutput : Option Bool := none
  concurrency : Option UInt64 := none
  continueOnError : Bool := false
deriving DecidableEq, Repr

/-- What a configured task reports when it is run. -/
inductive TaskOutcome where
  | executed
  | upToDate
  | skipped (reason : String)
  | fail (message : String)
deriving DecidableEq, Repr

/-- A test of a configured task. -/
structure TestConfig where
  name : String
  className : Option String := none
  fail : Option String := none
deriving DecidableEq, Repr

/-- A declared task. -/
structure TaskConfig where
  path : TaskPath
  description : Option String := none
  dependsOn : List TaskPath := []
  outcome : TaskOutcome := .executed
  durationMs : UInt64 := 0
  tests : List TestConfig := []
deriving DecidableEq, Repr

/-- The tasks that an engine serves. -/
structure Workspace where
  defaultTasks : List String := []
  tasks : List TaskConfig := []
deriving DecidableEq, Repr

/-- A whole configuration. -/
structure Config where
  connection : ConnectionParameters := {}
  build : BuildDefaults := {}
  workspace : Workspace := {}
deriving DecidableEq, Repr

end BuildStream
