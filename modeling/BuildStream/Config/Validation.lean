/-
# Validating a configuration

A configuration is checked for a Java home that is no directory, a concurrency of zero, and task
references that lead nowhere.  `violations` lists everything that is wrong, in the order in which
it is looked for: Java home, concurrency, task paths, dependencies, default tasks.  A
configuration is accepted if the list is empty, and refused with its head otherwise.

A default task that is rooted has to be a declared path; a bare one has to be the last part of a
declared path.
-/
import BuildStream.Config
import BuildStream.Files

namespace BuildStream

/-- Something wrong with a field of a configuration. -/
structure Violation where
  field : String
  message : String
deriving DecidableEq, Repr

namespace Config

/-! ## 1. Build defaults -/

/-- A Java home that is no directory. -/
def javaHomeViolations (fs : Files) (build : BuildDefaults) : List Violation :=
  match build.javaHome with
  | none => []
  | some home =>
    if fs.isDirectory home then [] else [⟨"build.java_home", home ++ " is not a directory"⟩]

/-- A concurrency of zero. -/
def concurrencyViolations (build : BuildDefaults) : List Violation :=
  if build.concurrency = some 0 then [⟨"build.concurrency", "must be at least 1"⟩] else []

/-! ## 2. The workspace -/

/-- The field of a task. -/
def taskField (index : Nat) (name : String) : String :=
  "workspace.tasks[" ++ Nat.repr index ++ "]." ++ name

/-- What is wrong with one path, given the paths declared before it. -/
def pathViolations (declared : List TaskPath) (index : Nat) (path : TaskPath) : List Violation :=
  let field := taskField index "path"
  if !path.isRooted then [⟨field, "task path '" ++ path ++ "' must start with ':'"⟩]
  else if declared.contains path then [⟨field, "task '" ++ path ++ "' is declared twice"⟩]
  else []

/-- What is wrong with paths, given those declared before them and the index of the first. -/
def allPathViolations (declared : List TaskPath) (index : Nat) : List TaskPath → List Violation
  | [] => []
  | path :: paths =>
    pathViolations declared index path ++
      allPathViolations (declared ++ [path]) (index + 1) paths

/-- Dependencies on paths that are not declared, given the index of the first task. -/
def dependencyViolations (declared : List TaskPath) (index : Nat) :
    List TaskConfig → List Violation
  | [] => []
  | task :: tasks =>
    (task.dependsOn.filter fun dep => !declared.contains dep).map (fun dep =>
        ⟨taskField index "depends_on", "unknown task '" ++ dep ++ "'"⟩) ++
      dependencyViolations declared (index + 1) tasks

/-- Whether a default task is declared, by its path or by the last part of one. -/
def isKnownTarget (declared : List TaskPath) (target : String) : Bool :=
  if TaskPath.isRooted target then declared.contains target
  else (declared.map TaskPath.lastSegment).contains target

/-- Default tasks that are not declared. -/
def defaultTaskViolations (declared : List TaskPath) (targets : List String) : List Violation :=
  (targets.filter fun target => !isKnownTarget declared target).map fun target =>
    ⟨"workspace.default_tasks", "unknown task '" ++ target ++ "'"⟩

/-- The declared paths, in order. -/
def declaredPaths (w : Workspace) : List TaskPath := w.tasks.map (·.path)

/-! ## 3. The whole -/

/-- Everything that is wrong, in the order in which it is looked for. -/
def violations (fs : Files) (c : Config) : List Violation :=
  let declared := declaredPaths c.workspace
  javaHomeViolations fs c.build ++ concurrencyViolations c.build ++
    allPathViolations [] 0 declared ++ dependencyViolations declared 0 c.workspace.tasks ++
    defaultTaskViolations declared c.workspace.defaultTasks

/-- Accepts a configuration or refuses it with the first violation. -/
def validate (fs : Files) (c : Config) : Except Violation Unit :=
  match violations fs c with
  | [] => .ok ()
  | v :: _ => .error v

end Config

end BuildStream
