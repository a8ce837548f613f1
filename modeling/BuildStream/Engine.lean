/-
# The engine

An engine runs the builds of a registry.  A build takes a generator of its own, starts, asks about
cancellation, plans its targets, runs the plan and finishes.  A request that cannot be planned is a
failed build and not an error of the engine.  A build has one start and one finish, with one
exception: a schedule that asks for more permits than there can be does not start, and its build
breaks down without a finish.

How the schedule of a plan gets to its end is a parameter of `buildBy`: `build` drives it, and
`buildAlong` follows a list of choices first, so what holds for all choices holds for the drive.
-/
import BuildStream.Forwarding
import BuildStream.Schedule.Drive
import BuildStream.Task.Configured
import BuildStream.Task.Launchables

namespace BuildStream

/-- How a build ended. -/
inductive BuildOutcome where
  | succeeded
  | failed
  | cancelled
deriving DecidableEq, Repr

namespace BuildOutcome

/-- The word for an outcome. -/
def word : BuildOutcome → String
  | succeeded => "succeeded"
  | failed => "failed"
  | cancelled => "cancelled"

end BuildOutcome

/-- The summary of a build. -/
structure Summary where
  outcome : BuildOutcome
  /-- The reports of the planned tasks, in the order of the plan. -/
  tasks : List TaskReport
  /-- The failures that the finish of the build reports. -/
  failures : List Failure
  millis : Nat
deriving Repr

namespace Summary

/-- Whether the build succeeded. -/
def isSuccess (s : Summary) : Bool := s.outcome == .succeeded

/-- How many tasks ended in a way. -/
def count (s : Summary) (f : TaskStatus → Bool) : Nat :=
  (s.tasks.filter fun t => f t.status).length

end Summary

/-- Everything that came of a build. -/
structure BuildResult where
  /-- What could be seen, in order. -/
  trace : List (Sign Event)
  /-- The summary; there is none if the build broke down. -/
  summary? : Option Summary
  /-- Whether cancellation was requested by the end. -/
  requested : Bool
deriving Repr

namespace BuildResult

/-- What was sent to the client, in order. -/
def events (b : BuildResult) : List Event := b.trace.filterMap Sign.sent?

/-- The hooks that were called, in order. -/
def hooks (b : BuildResult) : List Hook := b.trace.filterMap Sign.called?

/-- The stamps that were taken, in order. -/
def stamps (b : BuildResult) : List Stamp := b.trace.filterMap Sign.stamp?

end BuildResult

/-- An engine. -/
structure Engine where
  registry : Registry
  options : ScheduleOptions
  /-- What is said of the worker of a task that panicked. -/
  lost : TaskPath → String

namespace Engine

/-- The engine of a configuration. -/
def ofConfig (rt : Runtime) (c : Config) : Engine where
  registry := c.workspace.registry
  options := .ofDefaults rt.parallelism c.build
  lost := rt.lost

/-- What the events of a request are made of. -/
def reporter (request : Request) (start : Timestamp) : Reporter Event :=
  ⟨start, Hook.events request.subscriptions⟩

/-- What is known before the build finishes. -/
structure Progressed where
  trace : List (Sign Event)
  tasks : List TaskReport
  failures : List Failure
  cancelled : Bool
  requested : Bool
  millis : Nat

/-- A build in which nothing was planned. -/
def unplanned (failures : List Failure) (cancelled requested : Bool) : Progressed :=
  ⟨[], [], failures, cancelled, requested, 0⟩

/-- A build whose schedule came to its end. -/
def scheduled (su : ScheduleSetup Event) (s : Schedule Event) : Progressed :=
  let reports := s.orderedReports su
  ⟨s.trace, reports, reports.filterMap (·.failure), s.cancelled, s.requested, s.now⟩

/-- The schedule of a planned build. -/
def setup (e : Engine) (request : Request) (run : BuildRun) (start : Timestamp) (plan : Plan) :
    ScheduleSetup Event where
  registry := e.registry
  plan := plan
  options := e.options
  build := run
  reporter := reporter request start
  hasToken := request.cancellation.isSome
  lost := e.lost

/-- How a build outcome follows from what is known. -/
def outcomeOf (p : Progressed) : BuildOutcome :=
  if p.cancelled then .cancelled else if p.failures.isEmpty then .succeeded else .failed

/-- What a build does between its start and its finish, given how a schedule gets to its end.  It
breaks down where its schedule would start if that asks for more permits than there can be. -/
def progressBy (finish : ScheduleSetup Event → Schedule Event → Schedule Event) (e : Engine)
    (request : Request) (run : BuildRun) (generator : Generator) (requested : Bool)
    (start : Timestamp) : Option Progressed :=
  if request.cancellation.isSome && requested then some (unplanned [] true requested)
  else
    match Plan.ofRequest e.registry request with
    | .error error => some (unplanned [.ofMessage error.message] false requested)
    | .ok plan =>
      if ScheduleOptions.maxPermits < e.options.permits then none
      else
        let su := e.setup request run start plan
        some (scheduled su (finish su (Schedule.start su generator requested)))

/-- What a build shows before its targets are planned. -/
def opening (request : Request) (run : BuildRun) (requested : Bool) (start : Timestamp) :
    List (Sign Event) :=
  .begun run :: ((reporter request start).signs start (.beforeBuild run) ++
    [.asked none (request.cancellation.isSome && requested)])

/-- The snapshot that the finish of a build reports. -/
def stateOf (start : Timestamp) (p : Progressed) : BuildState where
  startTime := start
  endTime := start.plusMillis p.millis
  cancelled := p.cancelled
  failures := p.failures

/-- What a build shows at its finish. -/
def closing (request : Request) (run : BuildRun) (start : Timestamp) (p : Progressed) :
    List (Sign Event) :=
  let state := stateOf start p
  (reporter request start).signs state.endTime (.afterBuild run state)

/-- The summary of a build. -/
def summaryOf (p : Progressed) : Summary := ⟨outcomeOf p, p.tasks, p.failures, p.millis⟩

/-- A whole build, given how a schedule gets to its end. -/
def buildBy (finish : ScheduleSetup Event → Schedule Event → Schedule Event) (e : Engine)
    (request : Request) (generator : Generator) (requested : Bool) (start : Timestamp) :
    BuildResult :=
  let (stamp, generator) := generator.allocate
  let run : BuildRun := ⟨stamp⟩
  let opened := opening request run requested start
  match progressBy finish e request run generator requested start with
  | none => { trace := opened, summary? := none, requested }
  | some p =>
    { trace := opened ++ (p.trace ++ closing request run start p)
      summary? := some (summaryOf p)
      requested := p.requested }

/-- A build whose schedule is driven, with cancellation due at a time. -/
def build (deadline : Option Nat) : Engine → Request → Generator → Bool → Timestamp → BuildResult :=
  buildBy fun su s => s.drive su deadline

/-- A build whose schedule follows choices as far as they go. -/
def buildAlong (choices : List Choice) :
    Engine → Request → Generator → Bool → Timestamp → BuildResult :=
  buildBy fun su s => s.runToEnd su choices

end Engine

end BuildStream
