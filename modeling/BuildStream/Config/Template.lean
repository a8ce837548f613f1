/-
# The configuration template

A file to start a workspace from, and the names under which configuration files are looked for.
-/
namespace BuildStream

namespace Config

/-- The names of configuration files, the preferred one first. -/
def fileNames : List String :=
  ["buildlink.toml", "buildlink.yaml", ".buildlink.toml", ".buildlink.yaml"]

/-- The lines of the template. -/
def templateLines : List String :=
  ["# buildlink configuration",
    "",
    "[connection]",
    "verbose_logging = false",
    "search_upwards = true",
    "daemon_max_idle = \x7b value = 3, unit = \"hours\" \x7d",
    "",
    "[build]",
    "jvm_arguments = [\"-Xmx1g\"]",
    "continue_on_error = false",
    "",
    "[workspace]",
    "default_tasks = [\":app:build\"]",
    "",
    "[[workspace.tasks]]",
    "path = \":lib:compile\"",
    "duration_ms = 50",
    "",
    "[[workspace.tasks]]",
    "path = \":app:compile\"",
    "depends_on = [\":lib:compile\"]",
    "duration_ms = 80",
    "",
    "[[workspace.tasks]]",
    "path = \":app:test\"",
    "depends_on = [\":app:compile\"]",
    "tests = [\x7b name = \"parsesInput\", class_name = \"AppTest\" \x7d]",
    "",
    "[[workspace.tasks]]",
    "path = \":app:build\"",
    "depends_on = [\":app:test\"]"]

/-- The text of the template. -/
def template : String := "\n".intercalate templateLines ++ "\n"

end Config

end BuildStream
