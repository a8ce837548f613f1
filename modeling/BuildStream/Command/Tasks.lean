/-
# Listing tasks

The tasks that the engine serves, for people or as JSON.
-/
import BuildStream.Command.Result
import BuildStream.Engine
import BuildStream.Json.Writer

namespace BuildStream

namespace Tasks

/-- A task as JSON. -/
def encodeTask (t : TaskDefinition) : Json :=
  .object [("path", .string t.path), ("description", Json.ofOption .string t.description),
    ("depends_on", Json.strings t.dependsOn)]

/-- The tasks of an engine as JSON. -/
def encode (r : Registry) : Json :=
  .object [("default_tasks", Json.strings r.defaultTasks), ("tasks", .array (r.tasks.map encodeTask)),
    ("launchables", .array (r.launchables.map NativeLaunchable.encode))]

/-- The lines of a task. -/
def taskLines (verbose : Bool) (t : TaskDefinition) : List Line :=
  let description :=
    match t.description with
    | some d => " - " ++ d
    | none => ""
  let dependencies :=
    if verbose && !t.dependsOn.isEmpty then
      [Console.line ("  " ++ Console.keyValue "depends on" (", ".intercalate t.dependsOn))]
    else []
  Console.line ("  " ++ t.path ++ description) :: dependencies

/-- The lines of the default tasks. -/
def defaultLines (r : Registry) : List Line :=
  if r.defaultTasks.isEmpty then []
  else
    [Console.blank, Console.line (Console.keyValue "default" (" ".intercalate r.defaultTasks))]

/-- The lines of the launchables. -/
def launchableLines (r : Registry) : List Line :=
  [Console.blank, Console.line (Console.header "Launchables")] ++
    r.launchables.map fun l => Console.line ("  " ++ l.displayName)

/-- The lines when there is no task. -/
def emptyLines (hasConfig : Bool) : List Line :=
  Console.warning "No tasks configured" ::
    if hasConfig then []
    else [Console.info "Create a buildlink.toml with [[workspace.tasks]] entries"]

/-- The lines for people. -/
def lines (verbose all hasConfig : Bool) (r : Registry) : List Line :=
  if r.tasks.isEmpty then emptyLines hasConfig
  else
    Console.line (Console.header ("Tasks (" ++ Nat.repr r.tasks.length ++ ")")) ::
      r.tasks.flatMap (taskLines verbose) ++ defaultLines r ++
      (if all then launchableLines r else [])

/-- Lists the tasks. -/
def list (s : Surroundings) (inv : Invocation) (all : Bool) (config : Config)
    (path : Option String) : CommandResult :=
  let r := (Engine.ofConfig s.runtime config).registry
  match inv.format with
  | .json => { lines := [Console.line (encode r).canonical.pretty] }
  | .text => { lines := lines inv.verbose all path.isSome r }

end Tasks

end BuildStream
