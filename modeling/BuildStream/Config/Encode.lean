/-
# A configuration as a JSON value

Every field is written, one that is absent as null, so the full form of a configuration shows
which defaults it was read with.
-/
import BuildStream.Config

namespace BuildStream

namespace ConnectionParameters

/-- The parameters of a connection. -/
def encode (p : ConnectionParameters) : Json :=
  .object [("verbose_logging", .bool p.verboseLogging),
    ("user_home_dir", Json.ofOption .string p.userHomeDir),
    ("project_dir", Json.ofOption .string p.projectDir),
    ("search_upwards", Json.ofOption .bool p.searchUpwards),
    ("embedded", Json.ofOption .bool p.embedded),
    ("daemon_max_idle", Json.ofOption IdleTimeout.encode p.daemonMaxIdle),
    ("daemon_base_dir", Json.ofOption .string p.daemonBaseDir)]

end ConnectionParameters

namespace BuildDefaults

/-- The defaults of a build. -/
def encode (b : BuildDefaults) : Json :=
  .object [("java_home", Json.ofOption .string b.javaHome),
    ("jvm_arguments", Json.strings b.jvmArguments),
    ("arguments", Json.strings b.arguments),
    ("color_output", Json.ofOption .bool b.colorOutput),
    ("concurrency", Json.ofOption (fun n => .nat n.toNat) b.concurrency),
    ("continue_on_error", .bool b.continueOnError)]

end BuildDefaults

namespace TaskOutcome

/-- An outcome. -/
def encode : TaskOutcome → Json
  | executed => .string "executed"
  | upToDate => .string "up_to_date"
  | skipped reason => .object [("skipped", .string reason)]
  | fail message => .object [("fail", .string message)]

end TaskOutcome

namespace TestConfig

/-- A test. -/
def encode (t : TestConfig) : Json :=
  .object [("name", .string t.name), ("class_name", Json.ofOption .string t.className),
    ("fail", Json.ofOption .string t.fail)]

end TestConfig

namespace TaskConfig

/-- A task. -/
def encode (t : TaskConfig) : Json :=
  .object [("path", .string t.path), ("description", Json.ofOption .string t.description),
    ("depends_on", Json.strings t.dependsOn), ("outcome", t.outcome.encode),
    ("duration_ms", .nat t.durationMs.toNat), ("tests", .array (t.tests.map TestConfig.encode))]

end TaskConfig

namespace Workspace

/-- A workspace. -/
def encode (w : Workspace) : Json :=
  .object [("default_tasks", Json.strings w.defaultTasks),
    ("tasks", .array (w.tasks.map TaskConfig.encode))]

end Workspace

namespace Config

/-- A whole configuration. -/
def encode (c : Config) : Json :=
  .object [("connection", c.connection.encode), ("build", c.build.encode),
    ("workspace", c.workspace.encode)]

end Config

end BuildStream
