/-
# How actions end

An action branches on the answers to its questions and on how its tests end, so it may end with
different results (`Action.MayEnd`).  The answers leave nothing open, since how its tests end is
determined in the same way: given them, there is one result (`Action.given`).  If all of them are
no, it is the one that `Action.outcome` computes.

What a report says apart from how long it took is its `Verdict`.  The verdict on a task is
determined by the result of its action (`TaskReport.verdict_of_ofState?`).
-/
import BuildStream.Schedule.Report

namespace BuildStream

/-! ## 1. Results -/

/-- The results that an action may end with, whatever the answers to its questions and however its
tests end. -/
inductive Action.MayEnd : Action → ActionResult → Prop
  | finish (result : ActionResult) : MayEnd (.finish result) result
  | poll {next : Bool → Action} {result : ActionResult} (answer : Bool) :
      MayEnd (next answer) result → MayEnd (.poll next) result
  | cancel {next : Action} {result : ActionResult} :
      MayEnd next result → MayEnd (.cancel next) result
  | pause {next : Action} {result : ActionResult} (millis : Nat) :
      MayEnd next result → MayEnd (.pause millis next) result
  | test {name : String} {className : Option String} {body : Action} {next : Bool → Action}
      {result : ActionResult} (passed : Bool) :
      MayEnd (next passed) result → MayEnd (.test name className body next) result

/-- An action whose errors can be rendered. -/
def Action.Renderable (a : Action) : Prop := ¬ a.MayEnd (.fails .unrenderable)

/-- Whether a result is anything but a normal return. -/
def ActionResult.isFailed : ActionResult → Bool
  | returns _ => false
  | fails _ => true
  | panics _ => true

/-- How an action ends whose questions are all answered with no. -/
def Action.outcome : Action → ActionResult
  | finish result => result
  | poll next => (next false).outcome
  | cancel next => next.outcome
  | pause _ next => next.outcome
  | test _ _ body next => (next !body.outcome.isFailed).outcome

/-- How an action ends whose questions get some answers, one after the other, and the answers that
it did not need.  It does not end if there are too few. -/
def Action.given : Action → List Bool → Option (ActionResult × List Bool)
  | finish result, answers => some (result, answers)
  | poll _, [] => none
  | poll next, answer :: answers => (next answer).given answers
  | cancel next, answers => next.given answers
  | pause _ next, answers => next.given answers
  | test _ _ body next, answers =>
    match body.given answers with
    | some (ended, rest) => (next !ended.isFailed).given rest
    | none => none

namespace Action

/-- A test is run before what follows it. -/
theorem given_test {name : String} {className : Option String} {body : Action}
    {next : Bool → Action} {answers rest : List Bool} {result : ActionResult}
    (h : (Action.test name className body next).given answers = some (result, rest)) :
    ∃ ended more, body.given answers = some (ended, more) ∧
      (next !ended.isFailed).given more = some (result, rest) := by
  rw [given] at h
  split at h
  · next ended more hb => exact ⟨ended, more, hb, h⟩
  · exact nomatch h

variable {a : Action} {answers rest : List Bool} {result : ActionResult}

theorem mayEnd_of_given (h : a.given answers = some (result, rest)) : a.MayEnd result := by
  induction a generalizing answers rest result with
  | finish ended =>
    obtain ⟨rfl, -⟩ : ended = result ∧ answers = rest := by simpa [given] using h
    exact .finish ended
  | poll next ih =>
    cases answers with
    | nil => exact nomatch h
    | cons answer answers => exact .poll answer (ih answer h)
  | cancel next ih => exact .cancel (ih h)
  | pause millis next ih => exact .pause millis (ih h)
  | test name className body next ihb ihn =>
    obtain ⟨ended, more, -, hn⟩ := given_test h
    exact .test _ (ihn _ hn)

/-- Where all answers are no, an action ends with its outcome. -/
theorem eq_outcome_of_given (h : a.given answers = some (result, rest))
    (hq : ∀ answer ∈ answers, answer = false) :
    result = a.outcome ∧ ∀ answer ∈ rest, answer = false := by
  induction a generalizing answers rest result with
  | finish ended =>
    obtain ⟨rfl, rfl⟩ : ended = result ∧ answers = rest := by simpa [given] using h
    exact ⟨rfl, hq⟩
  | poll next ih =>
    cases answers with
    | nil => exact nomatch h
    | cons answer answers =>
      obtain rfl : answer = false := hq answer (by simp)
      exact ih false h fun b hb => hq b (List.mem_cons_of_mem _ hb)
  | cancel next ih => exact ih h hq
  | pause millis next ih => exact ih h hq
  | test name className body next ihb ihn =>
    obtain ⟨ended, more, hb, hn⟩ := given_test h
    obtain ⟨rfl, hq'⟩ := ihb hb hq
    exact ihn _ hn hq'

end Action

theorem RunState.isFailed_ofResult (began ended : Timestamp) (result : ActionResult) :
    (ofResult began ended result).isFailed = result.isFailed := by
  cases result with
  | returns outcome => cases outcome <;> rfl
  | fails fault => rfl
  | panics payload => rfl

/-! ## 2. Verdicts -/

/-- What is said of a task in the end. -/
structure Verdict where
  status : TaskStatus
  failure : Option Failure := none

namespace Verdict

/-- The verdict on a task that never started. -/
def notRun : Verdict := ⟨.notRun, none⟩

/-- The verdict on a task with an error. -/
def ofError (chain : ErrorChain) : Verdict := ⟨.failed chain.line, some (.ofError chain)⟩

end Verdict

/-- Whether a task was started and failed. -/
def TaskStatus.isFailed : TaskStatus → Bool
  | failed _ => true
  | _ => false

namespace TaskReport

/-- The verdict of a report. -/
def verdict (r : TaskReport) : Verdict := ⟨r.status, r.failure⟩

end TaskReport

/-- The verdict on a task whose action has a result, with the words for the loss of its worker. -/
def ActionResult.verdict (path : TaskPath) (lost : String) : ActionResult → Verdict
  | returns .executed => ⟨.success, none⟩
  | returns .upToDate => ⟨.upToDate, none⟩
  | returns (.skipped reason) => ⟨.skipped reason, none⟩
  | fails (.error chain) => .ofError chain
  | fails .unrenderable => (TaskReport.lost path lost).verdict
  | panics payload => .ofError (.single ("action panicked: " ++ payload.message))

namespace ActionResult

variable (path : TaskPath) (lost : String) (result : ActionResult)

/-- A task whose action has a result succeeded or failed. -/
theorem status_verdict :
    (result.verdict path lost).status.isSuccess = !result.isFailed ∧
      (result.verdict path lost).status.isFailed = result.isFailed := by
  cases result with
  | returns outcome => cases outcome <;> exact ⟨rfl, rfl⟩
  | fails fault => cases fault <;> exact ⟨rfl, rfl⟩
  | panics payload => exact ⟨rfl, rfl⟩

/-- ...and it has a failure exactly if it failed. -/
theorem failure_verdict : (result.verdict path lost).failure.isSome = result.isFailed := by
  cases result with
  | returns outcome => cases outcome <;> rfl
  | fails fault => cases fault <;> rfl
  | panics payload => rfl

end ActionResult

namespace TaskReport

variable {path : TaskPath} {millis : Nat} {began ended : Timestamp} {result : ActionResult}

/-- The only result whose report cannot be made is an error that cannot be rendered. -/
theorem ofState?_eq_none (h : ofState? path millis (.ofResult began ended result) = none) :
    result = .fails .unrenderable := by
  cases result with
  | returns outcome => cases outcome <;> exact nomatch h
  | panics payload => exact nomatch h
  | fails fault =>
    cases fault with
    | error chain => exact nomatch h
    | unrenderable => rfl

/-- **The verdict on a task** does not depend on the clock. -/
theorem verdict_of_ofState? {report : TaskReport} (lost : String)
    (h : ofState? path millis (.ofResult began ended result) = some report) :
    report.path = path ∧ report.verdict = result.verdict path lost := by
  cases result with
  | returns outcome => cases outcome <;> (cases h; exact ⟨rfl, rfl⟩)
  | panics payload => cases h; exact ⟨rfl, rfl⟩
  | fails fault =>
    cases fault with
    | error chain => cases h; exact ⟨rfl, rfl⟩
    | unrenderable => exact nomatch h

end TaskReport

end BuildStream
