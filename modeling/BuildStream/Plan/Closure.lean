/-
# Dependency closures

The tasks of a plan are the selected ones and everything they depend on.  They are found by a
worklist: the first pending path becomes a node unless it is one already, and its dependencies
become pending.  A dependency that is not registered ends the search.

A path can be pending several times, once for each time it is selected or depended on by a node;
since a task becomes a node at most once, no more steps are needed than there are selected paths
and dependencies in the whole registry.
-/
import BuildStream.Distinct
import BuildStream.Plan.Error
import BuildStream.Task

namespace BuildStream

/-- A task of a plan and the tasks that have to end before it, each once. -/
structure PlanNode where
  path : TaskPath
  dependencies : List TaskPath
  /-- The number of its wave, once the waves are known. -/
  wave : Nat := 0
deriving DecidableEq, Repr

/-- A search for nodes. -/
structure Closure where
  pending : List TaskPath
  nodes : List PlanNode := []
deriving DecidableEq, Repr

namespace Closure

/-- Whether a path is a node already. -/
def has (c : Closure) (path : TaskPath) : Bool := c.nodes.any fun n => n.path == path

/-- The first dependency of a task that is not registered. -/
def unknown? (r : Registry) (task : TaskDefinition) : Option TaskPath :=
  task.dependsOn.find? fun dep => !r.contains dep

/-- Takes the first pending path. -/
def step (r : Registry) (c : Closure) : Except PlanError Closure :=
  match c.pending with
  | [] => .ok c
  | path :: pending =>
    if c.has path then .ok { c with pending }
    else
      match r.get? path with
      | none => .error (.taskNotFound path)
      | some task =>
        match unknown? r task with
        | some dependency => .error (.unknownDependency path dependency)
        | none =>
          let node : PlanNode := { path, dependencies := distinct task.dependsOn }
          .ok ⟨pending ++ task.dependsOn, c.nodes ++ [node]⟩

/-- Takes pending paths until none is left, at most so many. -/
def run (r : Registry) : Nat → Closure → Except PlanError Closure
  | 0, c => .ok c
  | fuel + 1, c =>
    if c.pending.isEmpty then .ok c
    else
      match c.step r with
      | .ok next => run r fuel next
      | .error e => .error e

/-- The number of steps that is always enough. -/
def bound (r : Registry) (selected : List TaskPath) : Nat :=
  selected.length + (r.tasks.flatMap (·.dependsOn)).length

/-- The nodes of the selected paths and everything they depend on. -/
def nodesOf (r : Registry) (selected : List TaskPath) : Except PlanError (List PlanNode) :=
  (run r (bound r selected) { pending := selected }).map (·.nodes)

end Closure

end BuildStream
