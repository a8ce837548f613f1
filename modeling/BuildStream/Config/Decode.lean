/-
# Reading a configuration

One decoder for every notation.  A field that is missing has its default, wherever the record
that lacks it stands; unknown fields are passed over.
-/
import BuildStream.Config

namespace BuildStream

variable {V : Type}

namespace ConnectionParameters

/-- The names of the fields, in order. -/
def fieldNames : List String :=
  ["verbose_logging", "user_home_dir", "project_dir", "search_upwards", "embedded",
    "daemon_max_idle", "daemon_base_dir"]

/-- Reads the parameters of a connection. -/
def decode (d : Dialect V) (v : V) : Except DecodeError ConnectionParameters := do
  let f ← d.fields fieldNames v
  let verboseLogging ← f.withDefault "verbose_logging" false d.bool
  let userHomeDir ← f.withDefault "user_home_dir" none (d.option d.text)
  let projectDir ← f.withDefault "project_dir" none (d.option d.text)
  let searchUpwards ← f.withDefault "search_upwards" none (d.option d.bool)
  let embedded ← f.withDefault "embedded" none (d.option d.bool)
  let daemonMaxIdle ← f.withDefault "daemon_max_idle" none (d.option (IdleTimeout.decode d))
  let daemonBaseDir ← f.withDefault "daemon_base_dir" none (d.option d.text)
  return {
    verboseLogging, userHomeDir, projectDir, searchUpwards, embedded, daemonMaxIdle,
    daemonBaseDir }

end ConnectionParameters

namespace BuildDefaults

/-- The names of the fields, in order. -/
def fieldNames : List String :=
  ["java_home", "jvm_arguments", "arguments", "color_output", "concurrency",
    "continue_on_error"]

/-- Reads the defaults of a build. -/
def decode (d : Dialect V) (v : V) : Except DecodeError BuildDefaults := do
  let f ← d.fields fieldNames v
  let javaHome ← f.withDefault "java_home" none (d.option d.text)
  let jvmArguments ← f.withDefault "jvm_arguments" [] (d.listOf d.text)
  let arguments ← f.withDefault "arguments" [] (d.listOf d.text)
  let colorOutput ← f.withDefault "color_output" none (d.option d.bool)
  let concurrency ← f.withDefault "concurrency" none (d.option (d.natural (UInt64.size - 1)))
  let continueOnError ← f.withDefault "continue_on_error" false d.bool
  return {
    javaHome, jvmArguments, arguments, colorOutput, continueOnError
    concurrency := concurrency.map UInt64.ofNat }

end BuildDefaults

namespace TaskOutcome

/-- The names of the variants, in order. -/
def variantNames : List String := ["executed", "up_to_date", "skipped", "fail"]

/-- The text that a variant carries. -/
def carried (d : Dialect V) : Option V → Except DecodeError String
  | some v => d.text v
  | none => .error (.invalidType .unitVariant "newtype variant")

/-- A variant that carries nothing. -/
def bare (d : Dialect V) (outcome : TaskOutcome) : Option V → Except DecodeError TaskOutcome
  | some v => (d.nothing v).map fun _ => outcome
  | none => .ok outcome

/-- Reads an outcome. -/
def decode (d : Dialect V) (v : V) : Except DecodeError TaskOutcome :=
  match d.variant v with
  | .error e => .error e
  | .ok (name, written) =>
    if name = "executed" then bare d .executed written
    else if name = "up_to_date" then bare d .upToDate written
    else if name = "skipped" then (carried d written).map .skipped
    else if name = "fail" then (carried d written).map .fail
    else .error (.unknownVariant name variantNames)

end TaskOutcome

namespace TestConfig

/-- Reads a test. -/
def decode (d : Dialect V) (v : V) : Except DecodeError TestConfig := do
  let f ← d.fields ["name", "class_name", "fail"] v
  let name ← f.required "name" d.text
  let className ← f.withDefault "class_name" none (d.option d.text)
  let fail ← f.withDefault "fail" none (d.option d.text)
  return { name, className, fail }

end TestConfig

namespace TaskConfig

/-- The names of the fields, in order. -/
def fieldNames : List String :=
  ["path", "description", "depends_on", "outcome", "duration_ms", "tests"]

/-- Reads a task. -/
def decode (d : Dialect V) (v : V) : Except DecodeError TaskConfig := do
  let f ← d.fields fieldNames v
  let path ← f.required "path" d.text
  let description ← f.withDefault "description" none (d.option d.text)
  let dependsOn ← f.withDefault "depends_on" [] (d.listOf d.text)
  let outcome ← f.withDefault "outcome" .executed (TaskOutcome.decode d)
  let duration ← f.withDefault "duration_ms" 0 (d.natural (UInt64.size - 1))
  let tests ← f.withDefault "tests" [] (d.listOf (TestConfig.decode d))
  return { path, description, dependsOn, outcome, durationMs := UInt64.ofNat duration, tests }

end TaskConfig

namespace Workspace

/-- Reads a workspace. -/
def decode (d : Dialect V) (v : V) : Except DecodeError Workspace := do
  let f ← d.fields ["default_tasks", "tasks"] v
  let defaultTasks ← f.withDefault "default_tasks" [] (d.listOf d.text)
  let tasks ← f.withDefault "tasks" [] (d.listOf (TaskConfig.decode d))
  return { defaultTasks, tasks }

end Workspace

namespace Config

/-- Reads a configuration. -/
def decode (d : Dialect V) (v : V) : Except DecodeError Config := do
  let f ← d.fields ["connection", "build", "workspace"] v
  let connection ← f.withDefault "connection" {} (ConnectionParameters.decode d)
  let build ← f.withDefault "build" {} (BuildDefaults.decode d)
  let workspace ← f.withDefault "workspace" {} (Workspace.decode d)
  return { connection, build, workspace }

end Config

end BuildStream
