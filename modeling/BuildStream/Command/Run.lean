/-
# Running tasks

A run makes a request of the command line and the configuration, has the engine build it, shows
its progress on the console, and reports how it ended.  What the command line leaves open is taken
from the configuration.

How the engine builds is a parameter of `runBy`: `run` has the schedule driven, and `runAlong` has
it follow a list of choices first.
-/
import BuildStream.Command.Result
import BuildStream.Console.Progress
import BuildStream.Engine
import BuildStream.Json.Writer
import BuildStream.Wire.Encode

namespace BuildStream

namespace RunArguments

/-! ## 1. The request -/

/-- The configuration with what the command line says about scheduling. -/
def override (a : RunArguments) (c : Config) : Config :=
  let build := c.build
  { c with
    build := { build with
      concurrency := a.concurrency.or build.concurrency
      continueOnError := build.continueOnError || a.continueOnError } }

/-- The name of the listeners that print. -/
def consoleName : String := "console"

/-- A listener that only returns. -/
def passive (name : String) : Listener := ⟨name, fun _ _ => {}⟩

/-- The listeners: those of the console, unless there is nothing to show, and one for the status
if much is to be told. -/
def listenerSettings (inv : Invocation) (a : RunArguments) : List Request.Setting :=
  let console (kind : EventKind) : Request.Setting := .listener kind (passive consoleName)
  let shown := !inv.quiet && inv.format = .text
  let kinds := if a.noTaskEvents then [.build] else [EventKind.build, .task, .test]
  (if shown then kinds.map console else []) ++
    (if inv.verbose then [.listener .status (passive "status")] else [])

/-- The settings of the request, in the order in which they are made. -/
def settings (s : Surroundings) (fs : Files) (inv : Invocation) (a : RunArguments) (c : Config) :
    List Request.Setting :=
  let connection := c.connection
  let build := c.build
  [.connection { connection with
      verboseLogging := connection.verboseLogging || inv.verbose
      projectDir := connection.projectDir.or (some fs.workingPath) },
    .colorOutput (build.colorOutput.or (some s.hasColors)),
    .jvmArguments (if a.jvmArguments.isEmpty then build.jvmArguments else a.jvmArguments),
    .arguments (if a.arguments.isEmpty then build.arguments else a.arguments),
    .cancellation (some 0), .javaHome (a.javaHome.or build.javaHome), .tasks a.tasks] ++
    listenerSettings inv a

/-! ## 2. Progress -/

/-- The lines that the console shows of events, each at the time of its event. -/
def progressLines (verbose : Bool) (start : Timestamp) (listeners : Listeners)
    (events : List Event) : List Line :=
  let (_, delivery) := ({} : Stream).drain listeners [] events
  (events.zip delivery.outcomes).flatMap fun (e, outcome) =>
    (outcome.calls.filter (·.listener == consoleName)).filterMap fun call =>
      (Console.progressLine verbose call).map fun text =>
        { text, millis := (start.millisBetween e.time).toNat }

/-! ## 3. The report -/

/-- The word for the end of a task. -/
def statusWord : TaskStatus → String
  | .success => "executed"
  | .upToDate => "up_to_date"
  | .skipped _ => "skipped"
  | .failed _ => "failed"
  | .notRun => "not_run"

/-- The summary as JSON. -/
def encodeSummary (summary : Summary) : Json :=
  .object [("outcome", .string summary.outcome.word), ("duration_ms", .nat summary.millis),
    ("tasks", .array (summary.tasks.map fun t =>
      .object [("path", .string t.path), ("status", .string (statusWord t.status)),
        ("duration_ms", .nat t.millis)])),
    ("failures", .array (summary.failures.map Wire.encodeFailure))]

/-- How many tasks ended in which way. -/
def countLine (summary : Summary) : Line :=
  let counted (word name : String) : String :=
    Nat.repr (summary.count fun status => statusWord status == word) ++ " " ++ name
  Console.line ("  " ++ Console.plural summary.tasks.length "task" ++ ": " ++
    ", ".intercalate [counted "executed" "executed", counted "up_to_date" "up-to-date",
      counted "skipped" "skipped", counted "failed" "failed", counted "not_run" "not run"])

/-- The lines on the outcome.  A failure is told of even when all else is not. -/
def outcomeLines (quiet : Bool) (summary : Summary) : List Line :=
  let elapsed := elapsedText summary.millis
  let unlessQuiet (lines : List Line) : List Line := if quiet then [] else lines
  match summary.outcome with
  | .succeeded => unlessQuiet [Console.blank, Console.success ("BUILD SUCCESSFUL in " ++ elapsed)]
  | .failed =>
    unlessQuiet [Console.blank] ++ [Console.error ("BUILD FAILED in " ++ elapsed)] ++
      summary.failures.map fun f => Console.subordinateError f.description
  | .cancelled =>
    unlessQuiet [Console.blank, Console.warning ("BUILD CANCELLED after " ++ elapsed)]

/-- The report on a build. -/
def report (inv : Invocation) (summary : Summary) : List Line :=
  match inv.format with
  | .json => [Console.line (encodeSummary summary).canonical.pretty]
  | .text =>
    outcomeLines inv.quiet summary ++
      (if inv.quiet || summary.tasks.isEmpty then [] else [countLine summary])

/-- The exit code of a build. -/
def exitCode : BuildOutcome → ExitCode
  | .succeeded => .success
  | .failed => .failedBuild
  | .cancelled => .cancelledBuild

/-! ## 4. The run -/

/-- The request for a run. -/
def request (s : Surroundings) (fs : Files) (inv : Invocation) (a : RunArguments)
    (config : Config) : Except RequestError Request :=
  Request.setAll fs {} (a.settings s fs inv (a.override config))

/-- The engine of a run. -/
def engine (s : Surroundings) (a : RunArguments) (config : Config) : Engine :=
  .ofConfig s.runtime (a.override config)

/-- What came of the build of a request, given how the engine builds. -/
def builtBy (go : Engine → Request → Generator → Bool → Timestamp → BuildResult)
    (s : Surroundings) (a : RunArguments) (config : Config) (request : Request) : BuildResult :=
  let (generator, _) := Scopes.generator {}
  go (a.engine s config) request generator false s.start

/-- What is shown of a build, and how the program ends after it.  A build that breaks down takes the
program with it. -/
def resultOf (s : Surroundings) (inv : Invocation) (request : Request) (built : BuildResult) :
    CommandResult :=
  let progress := progressLines inv.verbose s.start request.listeners built.events
  match built.summary? with
  | none => { code := .brokenDown, lines := progress }
  | some summary =>
    { code := exitCode summary.outcome
      lines := progress ++ Line.notBefore summary.millis (report inv summary) }

/-- Runs tasks, given how the engine builds. -/
def runBy (go : Engine → Request → Generator → Bool → Timestamp → BuildResult)
    (s : Surroundings) (fs : Files) (inv : Invocation) (a : RunArguments) (config : Config) :
    Except CommandError CommandResult :=
  match a.request s fs inv config with
  | .error e => .error (.request e)
  | .ok request => .ok (resultOf s inv request (a.builtBy go s config request))

/-- Runs tasks. -/
def run (s : Surroundings) (fs : Files) (inv : Invocation) (a : RunArguments) (config : Config) :
    Except CommandError CommandResult :=
  a.runBy (Engine.build a.cancelAfter) s fs inv config

/-- Runs tasks, in a build whose schedule follows choices as far as they go. -/
def runAlong (choices : List Choice) (s : Surroundings) (fs : Files) (inv : Invocation)
    (a : RunArguments) (config : Config) : Except CommandError CommandResult :=
  a.runBy (Engine.buildAlong choices) s fs inv config

end RunArguments

end BuildStream
