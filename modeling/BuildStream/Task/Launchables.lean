/-
# Launchables of a registry

An engine hands out one native launchable for every task, in the order of declaration, and one for
every name that tasks have, in the order in which the names are first seen.
-/
import BuildStream.Launchable.Wire
import BuildStream.Task

namespace BuildStream

namespace Registry

/-- The launchable of one task. -/
def taskLaunchable (t : TaskDefinition) : NativeLaunchable :=
  ⟨"Task " ++ t.path, t.description, (LaunchTarget.task t.path).encode⟩

/-- The launchable of all tasks of a name. -/
def nameLaunchable (name : String) : NativeLaunchable :=
  ⟨name ++ " in all projects", none, (LaunchTarget.selector name).encode⟩

/-- The names of tasks, each once. -/
def names (r : Registry) : List String := distinct (r.paths.map TaskPath.name)

/-- The launchables that the engine hands out. -/
def launchables (r : Registry) : List NativeLaunchable :=
  r.tasks.map taskLaunchable ++ r.names.map nameLaunchable

end Registry

end BuildStream
