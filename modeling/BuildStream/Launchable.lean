/-
# Launchables

Everything that a user can select to run.  An engine hands out native launchables, whose payload a
client passes back untouched; a client makes selectors, which stand for all tasks of a name; and a
task may be named by its path.  A handle of any other kind is not recognized, and a list with one
resolves to nothing at all.

Resolving folds a list of handles into task paths, each once and in first-seen order, and native
launchables, in order and with repetitions.
-/
import BuildStream.Distinct
import BuildStream.Json
import BuildStream.TaskPath

namespace BuildStream

/-! ## 1. Handles -/

/-- A handle that an engine made; its payload means something to that engine alone. -/
structure NativeLaunchable where
  displayName : String
  description : Option String
  payload : Json
deriving Repr, BEq

/-- A task named by its path. -/
structure TaskHandle where
  path : TaskPath
  description : Option String
deriving DecidableEq, Repr

/-- A handle for all tasks of a name, with their paths, each once. -/
structure TaskSelector where
  name : String
  displayName : String
  taskPaths : List TaskPath
deriving DecidableEq, Repr

namespace TaskSelector

/-- The selector of a name over some paths. -/
def ofPaths (name : String) (paths : List TaskPath) : TaskSelector :=
  ⟨name, name ++ " in all projects", distinct paths⟩

/-- Whether a project is another one or inside it; every project is inside the root. -/
def isUnder (project above : String) : Bool :=
  above == TaskPath.root || project == above ||
    (above.toList ++ [':']).isPrefixOf project.toList

/-- The selector of the tasks of a name in a project and the projects inside it. -/
def ofProject (name project : String) (tasks : List TaskHandle) : TaskSelector :=
  let chosen := tasks.filter fun t =>
    TaskPath.name t.path == name && isUnder (TaskPath.project t.path) project
  let selector := ofPaths name (chosen.map (·.path))
  if project = TaskPath.root then selector
  else { selector with displayName := name ++ " in " ++ project ++ " and subprojects" }

end TaskSelector

/-- A handle for something that can be run. -/
inductive Launchable where
  | native (l : NativeLaunchable)
  | selector (s : TaskSelector)
  | task (t : TaskHandle)
  | unrecognized (kind : String)
deriving Repr, BEq

namespace Launchable

/-- The name of a handle's kind. -/
def kindName : Launchable → String
  | native _ => "NativeLaunchable"
  | selector _ => "TaskSelector"
  | task _ => "Task"
  | unrecognized kind => kind

/-- The handle as it is shown. -/
def text : Launchable → String
  | native l => l.displayName
  | selector s => s.displayName
  | task t => "Task " ++ t.path
  | unrecognized kind => "<" ++ kind ++ ">"

end Launchable

/-! ## 2. Resolving -/

/-- What handles stand for. -/
structure Targets where
  taskPaths : List TaskPath := []
  natives : List NativeLaunchable := []
deriving Repr, BEq

namespace Targets

/-- Adds what one handle stands for; fails with the kind of one that is not recognized. -/
def add (t : Targets) : Launchable → Except String Targets
  | .native l => .ok { t with natives := t.natives ++ [l] }
  | .selector s => .ok { t with taskPaths := addAllNew t.taskPaths s.taskPaths }
  | .task handle => .ok { t with taskPaths := addNew t.taskPaths handle.path }
  | .unrecognized kind => .error kind

/-- Adds what handles stand for, one after the other. -/
def addAll (t : Targets) : List Launchable → Except String Targets
  | [] => .ok t
  | l :: ls =>
    match t.add l with
    | .ok t => addAll t ls
    | .error kind => .error kind

/-- What a list of handles stands for; fails with the kind of the first that is not
recognized. -/
def resolve (launchables : List Launchable) : Except String Targets := addAll {} launchables

end Targets

end BuildStream
