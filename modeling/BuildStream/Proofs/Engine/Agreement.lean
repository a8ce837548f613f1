/-
# Reports and what clients are told

How a run of a task ended is read off its snapshot twice: for the report of the schedule, which
looks for a failure first, and for the event that its client is sent, which looks for it last.  The
two say the same exactly of the snapshots that are `Coherent`, where a failure stands alone
(`RunState.agrees_iff_coherent`).  Every snapshot of how an action ended is one of these.

So the report of a task that was handed over and the finish that its client is sent agree, whatever
its action ended with (`buildAlong_agreement`).  The one result that is set aside is an error that
cannot be rendered: then there is no finish to agree with.
-/
import BuildStream.Proofs.Engine.Reporting
import BuildStream.Proofs.Failure

namespace BuildStream

/-! ## 1. Snapshots -/

/-- A verdict on a task and the ending that a client is told say the same.  A failure is told with
its messages on one line, and as the only cause. -/
inductive Verdict.Agrees : Verdict → Ending → Prop
  | success : Agrees ⟨.success, none⟩ (.success false)
  | upToDate : Agrees ⟨.upToDate, none⟩ (.success true)
  | skipped (reason : String) : Agrees ⟨.skipped reason, none⟩ (.skipped reason)
  | failed (f : Failure) : Agrees ⟨.failed (": ".intercalate f.messages), some f⟩ (.failed [f])

/-- The verdict on an error agrees with the failure that is made of it. -/
theorem Verdict.agrees_ofError (chain : ErrorChain) :
    (Verdict.ofError chain).Agrees (.failed [.ofError chain]) := by
  have h := Agrees.failed (.ofError chain)
  rwa [Failure.messages_ofError] at h

/-- It agrees with nothing else. -/
theorem Verdict.Agrees.eq_of_ofError {chain : ErrorChain} {ending : Ending}
    (h : (Verdict.ofError chain).Agrees ending) : ending = .failed [.ofError chain] := by
  generalize hv : Verdict.ofError chain = verdict at h
  cases h with
  | failed f =>
    obtain rfl : Failure.ofError chain = f := Option.some.inj (congrArg Verdict.failure hv)
    rfl
  | _ => exact nomatch congrArg Verdict.failure hv

namespace RunState

/-- A snapshot of a failure says nothing else. -/
def Coherent (s : RunState) : Prop :=
  s.failure.isSome = true → s.upToDate = false ∧ s.skipMessage = none

/-- **A snapshot of how an action ended** is coherent. -/
theorem coherent_ofResult (began ended : Timestamp) (result : ActionResult) :
    (ofResult began ended result).Coherent := by
  cases result with
  | returns outcome => cases outcome <;> exact fun h => nomatch h
  | fails fault => exact fun _ => ⟨rfl, rfl⟩
  | panics payload => exact fun _ => ⟨rfl, rfl⟩

/-- **The two readings of a snapshot agree exactly if it is coherent**: one looks at the failure
first and the other last. -/
theorem agrees_iff_coherent (path : TaskPath) (millis : Nat) {s : RunState}
    (hr : s.failure ≠ some .unrenderable) :
    ∃ report ending, TaskReport.ofState? path millis s = some report ∧ s.ending? = some ending ∧
      (report.verdict.Agrees ending ↔ s.Coherent) := by
  obtain ⟨startTime, endTime, upToDate, skipMessage, failure⟩ := s
  cases failure with
  | none =>
    have hcoherent : Coherent ⟨startTime, endTime, upToDate, skipMessage, none⟩ :=
      fun h => nomatch h
    cases upToDate with
    | true => exact ⟨_, _, rfl, rfl, iff_of_true .upToDate hcoherent⟩
    | false =>
      cases skipMessage with
      | some reason => exact ⟨_, _, rfl, rfl, iff_of_true (.skipped reason) hcoherent⟩
      | none => exact ⟨_, _, rfl, rfl, iff_of_true .success hcoherent⟩
  | some fault =>
    cases fault with
    | unrenderable => exact absurd rfl hr
    | error chain =>
      -- the report is on the error, whatever else the snapshot says
      cases upToDate with
      | true =>
        have hnot : ¬ Coherent ⟨startTime, endTime, true, skipMessage, some (.error chain)⟩ :=
          fun h => absurd (h rfl).1 (by simp)
        exact ⟨_, _, rfl, rfl, iff_of_false (fun h => nomatch h.eq_of_ofError) hnot⟩
      | false =>
        cases skipMessage with
        | some reason =>
          have hnot : ¬ Coherent ⟨startTime, endTime, false, some reason, some (.error chain)⟩ :=
            fun h => Option.some_ne_none reason (h rfl).2
          exact ⟨_, _, rfl, rfl, iff_of_false (fun h => nomatch h.eq_of_ofError) hnot⟩
        | none =>
          exact ⟨_, _, rfl, rfl, iff_of_true (Verdict.agrees_ofError chain) fun _ => ⟨rfl, rfl⟩⟩

/-- A snapshot has an error that cannot be rendered if that is how its action ended. -/
theorem failure_ofResult_ne {result : ActionResult} (hr : result ≠ .fails .unrenderable)
    (began ended : Timestamp) : (ofResult began ended result).failure ≠ some .unrenderable := by
  cases result with
  | returns outcome => cases outcome <;> exact fun h => nomatch h
  | panics payload => exact fun h => nomatch h
  | fails fault =>
    intro h
    obtain rfl : fault = .unrenderable := Option.some.inj h
    exact hr rfl

/-- **The verdict on an action and what is told of its end** agree. -/
theorem exists_agreed_result? {result : ActionResult} (hr : result ≠ .fails .unrenderable)
    (path : TaskPath) (lost : String) (began ended : Timestamp) :
    ∃ r, (ofResult began ended result).result? = some r ∧
      (result.verdict path lost).Agrees r.ending := by
  obtain ⟨report, ending, hreport, hending, hagrees⟩ :=
    agrees_iff_coherent path 0 (failure_ofResult_ne hr began ended)
  have hverdict := (TaskReport.verdict_of_ofState? lost hreport).2
  refine ⟨⟨_, _, ending⟩, by rw [result?, hending, Option.map_some], ?_⟩
  rw [← hverdict]
  exact hagrees.mpr (coherent_ofResult began ended result)

end RunState

namespace Engine

/-! ## 2. Builds -/

/-- **Reports and what clients are told agree.**

Whatever a build runs, in whatever order the workers take their steps: the action of a task that was
handed over ended with a result, given the answers that it got.  If that result can be rendered, the
summary has one report for the path of the task, with the verdict on that result; the hook after the
task was called with a snapshot of it; and the verdict agrees with the result that is read off that
snapshot.  This result is the one that a client is sent that subscribed to tasks: under the id of
the run there are a start and then a finish with it, as long as no stamp comes twice. -/
theorem buildAlong_agreement (e : Engine) (request : Request) (g : Generator) (requested : Bool)
    (start : Timestamp) (choices : List Choice) :
    let result := e.buildAlong choices request g requested start
    ∀ run, .handed run ∈ result.trace →
      ∃ task ended, e.registry.get? run.path = some task ∧
        task.action.given (Sign.answers (result.trace.filter fun sign =>
          decide (sign.worker? = some run))) = some (ended, []) ∧
        (ended ≠ .fails .unrenderable → ∃ summary report state r,
          result.summary? = some summary ∧
          (summary.tasks.filter fun other => other.path == run.path) = [report] ∧
          report.verdict = ended.verdict run.path (e.lost run.path) ∧
          .afterTask run state ∈ result.hooks ∧
          state.result? = some r ∧
          report.verdict.Agrees r.ending ∧
          (result.stamps.length ≤ UInt64.size → request.subscriptions.task = true →
            ((result.events.filterMap Event.transition?).filter fun t =>
              decide (t.1.id = run.id)) =
                [(run.descriptor, .started), (run.descriptor, .finished r)])) := by
  intro result run hr
  obtain ⟨su, s, report, summary, ht, hregistry, hlost, -, htrace, hown, hs, hreport⟩ :=
    buildAlong_tracks hr
  obtain ⟨hpath, -, task, ended, hg, hgiven, hverdict, hlast⟩ := ht.ended
  refine ⟨task, ended, hregistry ▸ hg, hown ▸ hgiven, fun hrender => ?_⟩
  obtain ⟨began, stopped, hc⟩ := hlast hrender
  rw [hlost] at hverdict
  obtain ⟨r, hresult, hagrees⟩ :=
    RunState.exists_agreed_result? hrender run.path (e.lost run.path) began stopped
  have hcalled : .called (.afterTask run (.ofResult began stopped ended)) ∈ result.trace :=
    htrace hc
  refine ⟨summary, report, _, r, hs, hpath ▸ hreport, hverdict, Sign.mem_hooks.mpr hcalled, hresult,
    hverdict ▸ hagrees, fun hb hw => ?_⟩
  obtain ⟨inner, h⟩ := framed_of_handed hb hr
  exact h.transitions_of_after hcalled hresult hw

/-! ### An error with a cause -/

namespace Caused

/-- The error of the task. -/
def chain : ErrorChain := (ErrorChain.single "disk full").context "copy failed"

/-- An engine with the task. -/
def engine : Engine where
  registry := .ofTasks [{ path := ":copy", action := .finish (.fails (.error chain)) }] []
  options := { concurrency := 1 }
  lost := fun _ => "task 1 panicked"

/-- A request for the task, with a listener for tasks. -/
def request : Request where
  tasks := some [":copy"]
  listeners := { task := [Sample.listener "task"] }

/-- The scheduler hands the task over, its worker runs it, and the wave ends. -/
def choices : List Choice :=
  [.scheduler, .scheduler] ++ List.replicate 9 (.worker 0) ++ [.scheduler]

/-- The build. -/
def result : BuildResult := engine.buildAlong choices request ⟨1, 1⟩ false .epoch

/-- The run of the task. -/
def run : TaskRun := ⟨⟨1, 2⟩, ":copy", none, ⟨⟨1, 1⟩⟩⟩

theorem result_eq :
    result = engine.buildBy (fun su s => s.run su choices) request ⟨1, 1⟩ false .epoch := by
  refine buildAlong_of_isFinished ?_
  intro plan hp
  cases hp
  rfl

end Caused

/-- The report has both messages on its line, and the client is sent the failure of the report. -/
theorem agreement_caused :
    Caused.result.stamps.length ≤ UInt64.size ∧ .handed Caused.run ∈ Caused.result.trace ∧
      ∃ summary report r, Caused.result.summary? = some summary ∧
        (summary.tasks.filter fun other => other.path == ":copy") = [report] ∧
        report.status = .failed "copy failed: disk full" ∧
        report.failure = some (.ofError Caused.chain) ∧
        ((Caused.result.events.filterMap Event.transition?).filter fun t =>
          decide (t.1.id = Caused.run.id)) =
            [(Caused.run.descriptor, .started), (Caused.run.descriptor, .finished r)] ∧
        r.ending = .failed [.ofError Caused.chain] := by
  have hb : Caused.result.stamps.length ≤ UInt64.size := by
    rw [Caused.result_eq]
    decide
  have hr : .handed Caused.run ∈ Caused.result.trace := by
    rw [Caused.result_eq, ← Sign.mem_handed]
    exact List.mem_singleton_self _
  obtain ⟨task, ended, hg, hgiven, hrender⟩ := buildAlong_agreement Caused.engine Caused.request
    ⟨1, 1⟩ false .epoch Caused.choices Caused.run hr
  obtain rfl : { path := ":copy", action := .finish (.fails (.error Caused.chain)) } = task :=
    Option.some.inj hg
  obtain ⟨rfl, -⟩ := Prod.mk.inj (Option.some.inj hgiven)
  obtain ⟨summary, report, state, r, hs, hreport, hverdict, -, -, hagrees, hsent⟩ :=
    hrender (fun h => nomatch h)
  have hline : Caused.chain.line = "copy failed: disk full" := by decide
  have hstatus : report.status = .failed Caused.chain.line := congrArg Verdict.status hverdict
  have hfailure : report.failure = some (.ofError Caused.chain) :=
    congrArg Verdict.failure hverdict
  rw [hverdict] at hagrees
  exact ⟨hb, hr, summary, report, r, hs, hreport, hstatus.trans (congrArg _ hline), hfailure,
    hsent hb rfl, Verdict.Agrees.eq_of_ofError hagrees⟩

end Engine

end BuildStream
