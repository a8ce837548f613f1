/-
# Scripts of workers

A worker runs one task.  What it does is a script of single steps: it reads the clock, takes a
stamp for a test, asks about cancellation or requests it, waits, and emits what the hooks of its
runs make of what happens.  Between two steps of one worker others may take theirs, so the steps
are as small as what can be seen from outside.

What can be seen of a step is a `Sign`.  The call of a hook is one, and so is everything that is
made of the hook and sent; the signs of one worker are told from those of others by the run they
belong to.

`below` is the order in which scripts get smaller; every step leads to a smaller one.
-/
import BuildStream.Schedule.Report

namespace BuildStream

/-! ## 1. Signs -/

/-- What can be seen of a step. -/
inductive Sign (ε : Type) where
  /-- A build takes a stamp and begins. -/
  | begun (run : BuildRun)
  /-- A task takes a stamp and is handed to a worker. -/
  | handed (run : TaskRun)
  /-- A worker takes a stamp for a test. -/
  | stamped (run : TaskRun) (stamp : Stamp)
  /-- A worker, or else the engine itself, asks whether cancellation was requested. -/
  | asked (worker : Option TaskRun) (answer : Bool)
  /-- A hook is called. -/
  | called (hook : Hook)
  /-- Something made of a hook is sent. -/
  | sent (hook : Hook) (e : ε)
deriving Repr

namespace Sign

variable {ε : Type}

/-- What is sent. -/
def sent? : Sign ε → Option ε
  | sent _ e => some e
  | _ => none

/-- The hook that is called. -/
def called? : Sign ε → Option Hook
  | called hook => some hook
  | _ => none

/-- The stamp that is taken. -/
def stamp? : Sign ε → Option Stamp
  | begun run => some run.stamp
  | handed run => some run.stamp
  | stamped _ stamp => some stamp
  | _ => none

end Sign

/-! ## 2. Scripts -/

/-- What is left for a worker to do. -/
inductive Script (ε : Type) where
  | done (report : TaskReport)
  /-- Does something that can be seen. -/
  | emit (sign : Sign ε) (next : Script ε)
  /-- Reads the clock, in milliseconds. -/
  | clock (next : Nat → Script ε)
  /-- Takes a stamp. -/
  | stamp (next : Stamp → Script ε)
  /-- Asks whether cancellation was requested. -/
  | poll (next : Bool → Script ε)
  | cancel (next : Script ε)
  | pause (millis : Nat) (next : Script ε)

/-- What is made of hooks, and when the clock started. -/
structure Reporter (ε : Type) where
  start : Timestamp
  emit : Timestamp → Hook → List ε

namespace Reporter

/-- The moment at which the clock shows a number of milliseconds. -/
def moment {ε : Type} (r : Reporter ε) (millis : Nat) : Timestamp := r.start.plusMillis millis

/-- The signs of a hook: its call, and what is made of it. -/
def signs {ε : Type} (r : Reporter ε) (now : Timestamp) (hook : Hook) : List (Sign ε) :=
  .called hook :: (r.emit now hook).map (.sent hook)

end Reporter

namespace Script

variable {ε : Type}

/-! ## 3. Writing scripts -/

/-- Shows some signs, one after the other. -/
def emitAll (signs : List (Sign ε)) (next : Script ε) : Script ε := signs.foldr .emit next

/-- Tells of a hook at the present moment. -/
def tell (r : Reporter ε) (hook : Hook) (next : Script ε) : Script ε :=
  .clock fun now => emitAll (r.signs (r.moment now) hook) next

/-- The script of an action of a task; `finish` says what follows its result. -/
def ofAction (r : Reporter ε) (task : TaskRun) (finish : ActionResult → Script ε) :
    Action → Script ε
  | .finish result => finish result
  | .poll next => .poll fun requested => ofAction r task finish (next requested)
  | .cancel next => .cancel (ofAction r task finish next)
  | .pause millis next => .pause millis (ofAction r task finish next)
  | .test name className body next =>
    .stamp fun stamp =>
      let test : TestRun := ⟨stamp, name, className, task⟩
      tell r (.beforeTest test) <|
        .clock fun started =>
          ofAction r task
            (fun result =>
              .clock fun ended =>
                let state := RunState.ofResult (r.moment started) (r.moment ended) result
                tell r (.afterTest test state) (ofAction r task finish (next !state.isFailed)))
            body

/-- The end of a task that began and started at times and has a result: the hook and the report,
or the loss of the worker, in words, if the error cannot be rendered. -/
def finishTask (r : Reporter ε) (lost : String) (task : TaskRun) (began started : Nat)
    (result : ActionResult) : Script ε :=
  .clock fun ended =>
    let state := RunState.ofResult (r.moment started) (r.moment ended) result
    match TaskReport.ofState? task.path (ended - began) state with
    | none => .done (.lost task.path lost)
    | some report => tell r (.afterTask task state) (.done report)

/-- The script of a worker that runs a task, with the words for its loss. -/
def ofTask (r : Reporter ε) (lost : String) (task : TaskRun) (action : Action) : Script ε :=
  .clock fun began =>
    tell r (.beforeTask task) <|
      .clock fun started => ofAction r task (finishTask r lost task began started) action

/-- The report at the end of a script. -/
def report? : Script ε → Option TaskReport
  | .done report => some report
  | _ => none

/-- Whether nothing is left to do. -/
def isDone (s : Script ε) : Bool := s.report?.isSome

/-! ## 4. Scripts get smaller -/

/-- Which scripts a step may lead to. -/
inductive Below : Script ε → Script ε → Prop
  | emit (sign : Sign ε) (next : Script ε) : Below next (.emit sign next)
  | clock (next : Nat → Script ε) (n : Nat) : Below (next n) (.clock next)
  | stamp (next : Stamp → Script ε) (s : Stamp) : Below (next s) (.stamp next)
  | poll (next : Bool → Script ε) (b : Bool) : Below (next b) (.poll next)
  | cancel (next : Script ε) : Below next (.cancel next)
  | pause (millis : Nat) (next : Script ε) : Below next (.pause millis next)

theorem below_acc (s : Script ε) : Acc Below s := by
  induction s with
  | done report => exact ⟨_, fun _ h => nomatch h⟩
  | emit sign next ih => exact ⟨_, fun _ h => by cases h; exact ih⟩
  | clock next ih => exact ⟨_, fun _ h => by cases h; exact ih _⟩
  | stamp next ih => exact ⟨_, fun _ h => by cases h; exact ih _⟩
  | poll next ih => exact ⟨_, fun _ h => by cases h; exact ih _⟩
  | cancel next ih => exact ⟨_, fun _ h => by cases h; exact ih⟩
  | pause millis next ih => exact ⟨_, fun _ h => by cases h; exact ih⟩

end Script

end BuildStream
