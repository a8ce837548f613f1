/-
# Plans

A plan is made of targets: a rooted target is a task path, any other the name of tasks in any
project.  Its nodes are the selected tasks and everything they depend on, its order puts
dependencies first, and its waves group the tasks by the length of their longest chain of
dependencies; the tasks of a wave do not depend on each other.

The targets of a request are its tasks and what its native launchables stand for, or the default
tasks if it has neither.
-/
import BuildStream.Launchable.Wire
import BuildStream.Plan.Order
import BuildStream.Request

namespace BuildStream

/-- The tasks to run for some targets. -/
structure Plan where
  nodes : List PlanNode := []
  /-- All paths, dependencies first. -/
  sorted : List TaskPath := []
  /-- The paths by wave. -/
  waves : List (List TaskPath) := []
deriving DecidableEq, Repr

namespace Plan

/-! ## 1. Selection -/

/-- The paths that one target selects. -/
def pathsOf (r : Registry) (target : String) : Except PlanError (List TaskPath) :=
  let paths :=
    if TaskPath.isRooted target then (r.get? target).toList.map (·.path)
    else (r.named target).map (·.path)
  if paths.isEmpty then .error (.taskNotFound target) else .ok paths

/-- Adds the paths that targets select to those already selected. -/
def selectFrom (r : Registry) (selected : List TaskPath) :
    List String → Except PlanError (List TaskPath)
  | [] => .ok selected
  | target :: targets =>
    match pathsOf r target with
    | .ok paths => selectFrom r (addAllNew selected paths) targets
    | .error e => .error e

/-- The paths that targets select, each once. -/
def select (r : Registry) (targets : List String) : Except PlanError (List TaskPath) :=
  selectFrom r [] targets

/-! ## 2. Waves -/

/-- The wave after the latest of some dependencies, given the waves of paths so far. -/
def waveAfter (waves : List (TaskPath × Nat)) (dependencies : List TaskPath) : Nat :=
  (dependencies.filterMap fun d => waves.lookup d).foldl (fun n w => max n (w + 1)) 0

/-- The dependencies of a path among nodes. -/
def dependenciesIn (nodes : List PlanNode) (path : TaskPath) : List TaskPath :=
  match nodes.find? fun n => n.path == path with
  | some n => n.dependencies
  | none => []

/-- The waves of sorted paths, added to those known so far. -/
def assignWaves (nodes : List PlanNode) :
    List (TaskPath × Nat) → List TaskPath → List (TaskPath × Nat)
  | waves, [] => waves
  | waves, path :: paths =>
    assignWaves nodes (waves ++ [(path, waveAfter waves (dependenciesIn nodes path))]) paths

/-- The paths of each wave, in sorted order. -/
def groupWaves (waves : List (TaskPath × Nat)) : List (List TaskPath) :=
  let count := waves.foldl (fun n w => max n (w.2 + 1)) 0
  (List.range count).map fun i => (waves.filter fun w => w.2 == i).map (·.1)

/-- The nodes with the numbers of their waves. -/
def numberNodes (waves : List (List TaskPath)) (nodes : List PlanNode) : List PlanNode :=
  nodes.map fun n => { n with wave := (waves.findIdx? (·.contains n.path)).getD n.wave }

/-! ## 3. Plans -/

/-- The nodes in the order in which their tasks were declared. -/
def declaredNodes (r : Registry) (nodes : List PlanNode) : List PlanNode :=
  r.paths.filterMap fun path => nodes.find? fun n => n.path == path

/-- The plan of targets. -/
def ofTargets (r : Registry) (targets : List String) : Except PlanError Plan := do
  let selected ← select r targets
  let nodes ← Closure.nodesOf r selected
  let sorted ← TaskOrder.sort (declaredNodes r nodes)
  let waves := groupWaves (assignWaves nodes [] sorted)
  return ⟨numberNodes waves nodes, sorted, waves⟩

/-- The targets that a native launchable stands for. -/
def launchableTargets (r : Registry) (l : NativeLaunchable) : Except PlanError (List String) :=
  match LaunchTarget.decode false l.payload with
  | .error e => .error (.invalidLaunchable l.displayName e)
  | .ok (.task path) => .ok [path]
  | .ok (.selector name) => .ok ((r.named name).map (·.path))

/-- The targets that native launchables stand for, one after the other. -/
def allLaunchableTargets (r : Registry) : List NativeLaunchable → Except PlanError (List String)
  | [] => .ok []
  | l :: ls =>
    match launchableTargets r l with
    | .error e => .error e
    | .ok targets => (allLaunchableTargets r ls).map (targets ++ ·)

/-- The targets of a request. -/
def targetsOf (r : Registry) (tasks : Option (List TaskPath)) (natives : List NativeLaunchable) :
    Except PlanError (List String) :=
  if tasks.isNone && natives.isEmpty then .ok r.defaultTasks
  else (allLaunchableTargets r natives).map ((tasks.getD []) ++ ·)

/-- The plan of a request. -/
def ofRequest (r : Registry) (request : Request) : Except PlanError Plan :=
  (targetsOf r request.tasks request.launchables).bind (ofTargets r)

/-! ## 4. Questions -/

/-- The dependencies of a planned task. -/
def dependencies (p : Plan) (path : TaskPath) : List TaskPath := dependenciesIn p.nodes path

/-- The planned tasks that wait for a task. -/
def dependents (p : Plan) (path : TaskPath) : List TaskPath :=
  (p.nodes.filter fun n => n.dependencies.contains path).map (·.path)

/-- The node of a planned task. -/
def node? (p : Plan) (path : TaskPath) : Option PlanNode := p.nodes.find? fun n => n.path == path

/-- The wave of a planned task. -/
def wave? (p : Plan) (path : TaskPath) : Option Nat := (p.node? path).map (·.wave)

/-- A task of a plan on a line of its own. -/
def nodeLine (p : Plan) (path : TaskPath) : String :=
  let sorted := (p.dependencies path).mergeSort fun a b => a ≤ b
  if sorted.isEmpty then "  " ++ path ++ "\n"
  else "  " ++ path ++ " (after: " ++ ", ".intercalate sorted ++ ")\n"

/-- The lines of waves, given the number of the first. -/
def waveLines (p : Plan) (index : Nat) : List (List TaskPath) → String
  | [] => ""
  | wave :: waves =>
    "Wave " ++ Nat.repr index ++ " (" ++ Nat.repr wave.length ++ " tasks):\n" ++
      String.join (wave.map p.nodeLine) ++ waveLines p (index + 1) waves

/-- The plan in words. -/
def text (p : Plan) : String := waveLines p 0 p.waves

end Plan

end BuildStream
