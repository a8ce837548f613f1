/-
# Why a plan cannot be made
-/
import BuildStream.Decode
import BuildStream.TaskPath

namespace BuildStream

/-- Why targets cannot be planned. -/
inductive PlanError where
  /-- Tasks that wait for each other, or for such tasks, in the order of declaration. -/
  | cyclic (paths : List TaskPath)
  | taskNotFound (target : String)
  | unknownDependency (task dependency : TaskPath)
  | invalidLaunchable (name : String) (reason : DecodeError)
deriving Repr

namespace PlanError

/-- The words of an error. -/
def message : PlanError → String
  | cyclic paths => "Cyclic dependency detected among tasks: " ++ ", ".intercalate paths
  | taskNotFound target => "Task '" ++ target ++ "' not found in workspace"
  | unknownDependency task dependency =>
    "Task '" ++ task ++ "' depends on unknown task '" ++ dependency ++ "'"
  | invalidLaunchable name reason =>
    "Launchable '" ++ name ++ "' cannot be run by this engine: " ++ reason.message

end PlanError

end BuildStream
