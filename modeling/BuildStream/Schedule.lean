/-
# Schedules

The tasks of a plan run wave by wave.  A scheduler hands the tasks of a wave to workers, as long as
there are permits, and waits for all of them before it goes on to the next wave.  It asks about
cancellation before it hands over a task and after each wave; once it was cancelled, and after a
failure unless it is told to go on, no further task is started.  A task that waits for one that
failed or never ran is not started either.

The scheduler and the workers take their steps in any order.  A `Choice` says who takes the next
step, or that cancellation is requested from outside, and `run` follows a list of choices; a choice
of somebody who cannot take a step changes nothing.
-/
import BuildStream.Plan
import BuildStream.Schedule.Script

namespace BuildStream

/-! ## 1. The state -/

/-- What a schedule takes from the machine it runs on. -/
structure Runtime where
  /-- How many tasks the machine can run at once, if that is known. -/
  parallelism : Option Nat
  /-- What is said of the worker of a task that panicked. -/
  lost : TaskPath → String

/-- How tasks are scheduled. -/
structure ScheduleOptions where
  /-- How many tasks may run at once; none counts as one. -/
  concurrency : Nat
  /-- Whether tasks that do not wait for a failed one are still started. -/
  continueOnError : Bool := false
deriving DecidableEq, Repr

namespace ScheduleOptions

/-- The concurrency when none is configured and nothing is known of the machine. -/
def fallbackConcurrency : Nat := 4

/-- The options of a configured build; it runs what the machine can if no concurrency is set. -/
def ofDefaults (parallelism : Option Nat) (b : BuildDefaults) : ScheduleOptions where
  concurrency := (b.concurrency.map UInt64.toNat).getD (parallelism.getD fallbackConcurrency)
  continueOnError := b.continueOnError

/-- How many tasks may run at once. -/
def permits (o : ScheduleOptions) : Nat := max 1 o.concurrency

/-- The most permits that there can be, one less than two to the power of 61. -/
def maxPermits : Nat := 2305843009213693951

end ScheduleOptions

/-- A worker with the rest of its script. -/
structure Worker (ε : Type) where
  run : TaskRun
  script : Script ε
  /-- When it takes its next step at the earliest. -/
  wake : Nat

/-- Everything about a schedule that does not change. -/
structure ScheduleSetup (ε : Type) where
  registry : Registry
  plan : Plan
  options : ScheduleOptions
  build : BuildRun
  reporter : Reporter ε
  /-- Whether cancellation can be observed at all. -/
  hasToken : Bool
  /-- What is said of the worker of a task that panicked. -/
  lost : TaskPath → String

/-- Who takes the next step. -/
inductive Choice where
  | scheduler
  | worker (i : Nat)
  /-- Cancellation is requested from outside. -/
  | cancel
deriving DecidableEq, Repr

/-- A schedule in the middle of its work. -/
structure Schedule (ε : Type) where
  /-- The waves that were not begun. -/
  waves : List (List TaskPath)
  /-- Whether a wave was begun and has not ended. -/
  inWave : Bool := false
  /-- The tasks of the wave that were not handed over yet. -/
  queue : List TaskPath := []
  /-- The workers of the wave, in the order in which they got their tasks. -/
  workers : List (Worker ε) := []
  reports : List TaskReport := []
  /-- The tasks that failed or never ran. -/
  blocked : List TaskPath := []
  failed : Bool := false
  /-- Whether the scheduler observed cancellation. -/
  cancelled : Bool := false
  /-- Whether cancellation was requested. -/
  requested : Bool
  generator : Generator
  /-- What could be seen, in order. -/
  trace : List (Sign ε) := []
  /-- The clock, in milliseconds. -/
  now : Nat := 0

namespace Schedule

variable {ε : Type}

/-- The answer to the question whether cancellation was requested. -/
def poll (su : ScheduleSetup ε) (s : Schedule ε) : Bool := su.hasToken && s.requested

/-- What was sent, in order. -/
def log (s : Schedule ε) : List ε := s.trace.filterMap Sign.sent?

/-- How many workers are at work. -/
def running (s : Schedule ε) : Nat := (s.workers.filter fun w => !w.script.isDone).length

/-! ## 2. The scheduler -/

/-- Reports a task that is not started. -/
def leaveOut (s : Schedule ε) (path : TaskPath) : Schedule ε :=
  { s with blocked := s.blocked ++ [path], reports := s.reports ++ [.notRun path] }

/-- Gives a task to a new worker. -/
def handOver (su : ScheduleSetup ε) (s : Schedule ε) (task : TaskDefinition) : Schedule ε :=
  let (stamp, generator) := s.generator.allocate
  let run : TaskRun := ⟨stamp, task.path, task.description, su.build⟩
  let worker : Worker ε :=
    ⟨run, .ofTask su.reporter (su.lost task.path) run task.action, s.now⟩
  { s with generator, workers := s.workers ++ [worker], trace := s.trace ++ [.handed run] }

/-- The scheduler asks about cancellation. -/
def ask (su : ScheduleSetup ε) (s : Schedule ε) : Schedule ε :=
  { s with trace := s.trace ++ [.asked none (s.poll su)] }

/-- Whether a task waits for one that failed or never ran. -/
def waitsOnFailure (su : ScheduleSetup ε) (s : Schedule ε) (path : TaskPath) : Bool :=
  (su.plan.dependencies path).any s.blocked.contains

/-- Deals with the next task of the wave, unless it has to wait for a permit. -/
def dispatch (su : ScheduleSetup ε) (s : Schedule ε) (path : TaskPath) : Option (Schedule ε) :=
  match su.registry.get? path with
  | none => some (s.leaveOut path)
  | some task =>
    if waitsOnFailure su s path || s.cancelled then some (s.leaveOut path)
    else if su.options.permits ≤ s.running then none
    else if s.poll su then some { (s.ask su).leaveOut path with cancelled := true }
    else some ((s.ask su).handOver su task)

/-- Takes the report of a worker that is done. -/
def collect (s : Schedule ε) (w : Worker ε) : Schedule ε :=
  match w.script.report? with
  | none => s
  | some report =>
    let reported := { s with reports := s.reports ++ [report] }
    if report.status.isSuccess then reported
    else { reported with failed := true, blocked := s.blocked ++ [w.run.path] }

/-- Ends a wave whose workers are done. -/
def endWave (su : ScheduleSetup ε) (s : Schedule ε) : Schedule ε :=
  let collected := s.workers.foldl collect (s.ask su)
  { collected with
    inWave := false, workers := [], cancelled := s.cancelled || s.poll su }

/-- Whether no further wave is begun. -/
def isOver (su : ScheduleSetup ε) (s : Schedule ε) : Bool :=
  s.cancelled || (s.failed && !su.options.continueOnError)

/-- The scheduler's next step; none if it has to wait or is done. -/
def schedulerStep (su : ScheduleSetup ε) (s : Schedule ε) : Option (Schedule ε) :=
  match s.inWave, s.queue, s.waves with
  | true, path :: queue, _ => dispatch su { s with queue } path
  | true, [], _ => if s.running = 0 then some (s.endWave su) else none
  | false, _, wave :: waves =>
    if s.isOver su then
      some { s with waves, queue := [], reports := s.reports ++ wave.map .notRun }
    else some { s with waves, inWave := true, queue := wave }
  | false, _, [] => none

/-! ## 3. Workers -/

/-- A step of a worker. -/
def workerStep (su : ScheduleSetup ε) (s : Schedule ε) (i : Nat) : Schedule ε :=
  match s.workers[i]? with
  | none => s
  | some w =>
    let now := max s.now w.wake
    let goOn (script : Script ε) (wake : Nat) : Schedule ε :=
      { s with now, workers := s.workers.set i { w with script, wake } }
    match w.script with
    | .done _ => s
    | .emit sign next => { goOn next now with trace := s.trace ++ [sign] }
    | .clock next => goOn (next now) now
    | .stamp next =>
      let (stamp, generator) := s.generator.allocate
      { goOn (next stamp) now with generator, trace := s.trace ++ [.stamped w.run stamp] }
    | .poll next =>
      { goOn (next (s.poll su)) now with trace := s.trace ++ [.asked (some w.run) (s.poll su)] }
    | .cancel next => { goOn next now with requested := true }
    | .pause millis next => goOn next (now + millis)

/-! ## 4. Runs -/

/-- A step of the one whose turn it is. -/
def step (su : ScheduleSetup ε) (s : Schedule ε) : Choice → Schedule ε
  | .scheduler => (s.schedulerStep su).getD s
  | .worker i => s.workerStep su i
  | .cancel => { s with requested := true }

/-- Steps of those whose turn it is, one after the other. -/
def run (su : ScheduleSetup ε) (s : Schedule ε) (choices : List Choice) : Schedule ε :=
  choices.foldl (step su) s

/-- The start of the schedule of a plan. -/
def start (su : ScheduleSetup ε) (generator : Generator) (requested : Bool) : Schedule ε where
  waves := su.plan.waves
  requested := requested
  generator := generator

/-- Whether the schedule has come to its end. -/
def isFinished (s : Schedule ε) : Bool := s.waves.isEmpty && !s.inWave

/-- The reports in the order of the plan. -/
def orderedReports (su : ScheduleSetup ε) (s : Schedule ε) : List TaskReport :=
  su.plan.sorted.filterMap fun path => s.reports.find? fun r => r.path == path

end Schedule

end BuildStream
