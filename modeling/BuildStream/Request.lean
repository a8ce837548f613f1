/-
# Requests

A request says what to run and how, and who is told about it.  It is put together by a builder,
one setting at a time: a setting that is refused leaves the builder as it was.  Task paths are
kept once each and never blank, and an empty list of tasks or arguments is no list at all.

A request is a snapshot of the builder.  It names its source of cancellation; whether that source
has been cancelled is not part of it.
-/
import BuildStream.Config
import BuildStream.Files
import BuildStream.Launchable
import BuildStream.Listener
import BuildStream.Text.Blank

namespace BuildStream

/-- Why a setting was refused. -/
inductive RequestError where
  | invalidJavaHome (path : String)
  | invalidArgument (field : String) (message : String)
  | unsupportedLaunchable (kind : String)
deriving DecidableEq, Repr

namespace RequestError

/-- The words of an error. -/
def message : RequestError → String
  | invalidJavaHome path =>
    "Supplied javaHome is not a valid folder. You supplied: " ++ path
  | invalidArgument field message => "Invalid argument for " ++ field ++ ": " ++ message
  | unsupportedLaunchable kind =>
    "Only Task or TaskSelector instances are supported: " ++ kind

/-- The error of a blank task path. -/
def blankTask : RequestError := invalidArgument "tasks" "task path must not be blank"

end RequestError

/-- A source of cancellation, by number. -/
abbrev CancelSource := Nat

/-- What a request holds, and what a builder has gathered so far. -/
structure Request where
  connection : ConnectionParameters := {}
  stdout : Option Nat := none
  stderr : Option Nat := none
  stdin : Option Nat := none
  colorOutput : Option Bool := none
  javaHome : Option String := none
  jvmArguments : Option (List String) := none
  arguments : Option (List String) := none
  tasks : Option (List TaskPath) := none
  launchables : List NativeLaunchable := []
  listeners : Listeners := {}
  /-- The source of cancellation; a request without one is never cancelled. -/
  cancellation : Option CancelSource := none

/-- A list, unless it is empty. -/
def nonEmpty {α : Type} (xs : List α) : Option (List α) := if xs.isEmpty then none else some xs

namespace Request

/-- The kinds of events that the request asks for. -/
def subscriptions (r : Request) : Subscriptions := r.listeners.subscriptions

/-- Whether the source of cancellation is one of those cancelled. -/
def isCancelled (r : Request) (cancelled : List CancelSource) : Bool :=
  match r.cancellation with
  | some source => cancelled.contains source
  | none => false

/-! ## Settings -/

/-- Sets the Java home, which has to be a directory. -/
def setJavaHome (fs : Files) (r : Request) (home : Option String) :
    Except RequestError Request :=
  match home with
  | none => .ok { r with javaHome := none }
  | some path =>
    if fs.isDirectory path then .ok { r with javaHome := some path }
    else .error (.invalidJavaHome path)

/-- Sets the task paths, none of which may be blank; no path stands for the default tasks. -/
def setTasks (r : Request) (paths : List TaskPath) : Except RequestError Request :=
  if paths.any isBlank then .error .blankTask
  else .ok { r with tasks := nonEmpty (distinct paths) }

/-- Sets the tasks and the native launchables that handles stand for. -/
def setLaunchables (r : Request) (handles : List Launchable) : Except RequestError Request :=
  match Targets.resolve handles with
  | .ok targets =>
    .ok { r with tasks := nonEmpty targets.taskPaths, launchables := targets.natives }
  | .error kind => .error (.unsupportedLaunchable kind)

/-- One setting of a builder. -/
inductive Setting where
  | connection (parameters : ConnectionParameters)
  | stdout (handle : Option Nat)
  | stderr (handle : Option Nat)
  | stdin (handle : Option Nat)
  | colorOutput (value : Option Bool)
  | javaHome (path : Option String)
  | jvmArguments (values : List String)
  | arguments (values : List String)
  | tasks (paths : List TaskPath)
  | launchables (handles : List Launchable)
  | listener (kind : EventKind) (listener : Listener)
  | cancellation (source : Option CancelSource)
  | diagnostics (diagnostics : Diagnostics)

/-- Changes one setting, or refuses to. -/
def set (fs : Files) (r : Request) : Setting → Except RequestError Request
  | .connection parameters => .ok { r with connection := parameters }
  | .stdout handle => .ok { r with stdout := handle }
  | .stderr handle => .ok { r with stderr := handle }
  | .stdin handle => .ok { r with stdin := handle }
  | .colorOutput value => .ok { r with colorOutput := value }
  | .javaHome path => setJavaHome fs r path
  | .jvmArguments values => .ok { r with jvmArguments := nonEmpty values }
  | .arguments values => .ok { r with arguments := nonEmpty values }
  | .tasks paths => setTasks r paths
  | .launchables handles => setLaunchables r handles
  | .listener kind l => .ok { r with listeners := r.listeners.register kind l }
  | .cancellation source => .ok { r with cancellation := source }
  | .diagnostics d => .ok { r with listeners := { r.listeners with diagnostics := d } }

/-- Changes settings one after the other; the first that is refused ends it. -/
def setAll (fs : Files) : Request → List Setting → Except RequestError Request
  | r, [] => .ok r
  | r, s :: ss =>
    match r.set fs s with
    | .ok r => setAll fs r ss
    | .error e => .error e

end Request

end BuildStream
