/-
# The summary of a build

What the engine returns and what it sends last tell the same: the finish of the build tells of the
outcome in the summary, and of a failure with the failures in the summary (`buildAlong_summary`).
A build that breaks down has neither, even if its plan is empty (`summary_overdrawn`).

The failures are that of the plan, if there was none, and otherwise those of the tasks that failed,
in the order of the plan.  A build succeeds exactly if nobody was told of cancellation, a plan could
be made, and all that can be reached from the targets was a success.  That a build without failures
has no task that was left out is the one thing here that is not read off the engine: it rests on
`Schedule.Blamed`.
-/
import BuildStream.Proofs.Engine.Cancellation
import BuildStream.Proofs.Schedule.Failures

namespace BuildStream

/-- The values that there are, if it can be told which members have one. -/
theorem map_some_filterMap {α β : Type} {f : α → Option β} {p : α → Bool} {l : List α}
    (h : ∀ a ∈ l, (f a).isSome = p a) : (l.filterMap f).map some = (l.filter p).map f := by
  induction l with
  | nil => rfl
  | cons a l ih =>
    have hl := ih fun b hb => h b (List.mem_cons_of_mem _ hb)
    have ha := h a List.mem_cons_self
    cases hf : f a with
    | none =>
      rw [hf] at ha
      rw [List.filterMap_cons_none hf, List.filter_cons_of_neg (by simp [← ha]), hl]
    | some b =>
      rw [hf] at ha
      rw [List.filterMap_cons_some hf, List.filter_cons_of_pos (by simp [← ha]), List.map_cons,
        List.map_cons, hl, hf]

namespace BuildOutcome

variable {failures : List Failure} {outcome : BuildOutcome}

theorem ending_eq_failed {causes : List Failure} :
    outcome.ending failures = .failed causes ↔ outcome = .failed ∧ causes = failures := by
  cases outcome <;> simp [ending, eq_comm]

theorem ending_eq_success {upToDate : Bool} :
    outcome.ending failures = .success upToDate ↔ upToDate = false ∧ outcome = .succeeded := by
  cases outcome <;> simp [ending, eq_comm]

end BuildOutcome

namespace Engine

variable {e : Engine} {request : Request} {run : BuildRun} {start : Timestamp} {asked : Bool}
  {p : Progressed}

theorem outcomeOf_eq_succeeded :
    outcomeOf p = .succeeded ↔ p.cancelled = false ∧ p.failures = [] := by
  unfold outcomeOf
  cases p.cancelled with
  | true => simp
  | false => cases p.failures <;> simp

/-- **The failures of a build**: none if it was cancelled before, that of the plan if there is none,
and otherwise those of the tasks that failed. -/
theorem Course.failures (h : Course e request run start asked (some p)) :
    asked = true ∧ p.tasks = [] ∧ p.failures = [] ∨
    (∃ error, asked = false ∧ Plan.ofRequest e.registry request = .error error ∧
      p.tasks = [] ∧ p.failures = [.ofMessage error.message]) ∨
    ∃ plan, asked = false ∧ Plan.ofRequest e.registry request = .ok plan ∧
      p.tasks.map (·.path) = plan.sorted ∧
      p.failures.map some = (p.tasks.filter (·.status.isFailed)).map (·.failure) := by
  cases h with
  | cancelled requested => exact .inl ⟨rfl, rfl, rfl⟩
  | unplannable requested hp => exact .inr (.inl ⟨_, rfl, hp, rfl, rfl⟩)
  | @scheduled plan g requested choices hp hl hf =>
    obtain ⟨targets, nodes, hm⟩ := Plan.exists_made_of_ofRequest hp
    have hcourse : Schedule.OnCourse e.registry (e.setup request run start plan) _ :=
      Schedule.onCourse_run hm g requested choices
    refine .inr (.inr ⟨plan, rfl, hp, hcourse.map_path_orderedReports hm hf, ?_⟩)
    exact map_some_filterMap fun report hr =>
      hcourse.followed.failure_isSome ((hcourse.mem_orderedReports hm hf).mp hr)

/-- **When a build succeeds.** -/
theorem Course.succeeded_iff (h : Course e request run start asked (some p)) :
    outcomeOf p = .succeeded ↔ p.cancelled = false ∧ ∃ targets plan,
      Plan.targetsOf e.registry request.tasks request.launchables = .ok targets ∧
      Plan.ofTargets e.registry targets = .ok plan ∧
      ∀ path, e.registry.Reachable targets path →
        ∃ report ∈ p.tasks, report.path = path ∧ report.status.isSuccess = true := by
  rw [outcomeOf_eq_succeeded]
  refine and_congr_right fun hc => ?_
  cases h with
  | cancelled requested => exact nomatch hc
  | unplannable requested hp =>
    refine ⟨(fun hf => nomatch hf), fun ⟨targets, plan, ht, hplan, _⟩ => ?_⟩
    exact nomatch hp.symm.trans (Plan.ofRequest_eq_ok.mpr ⟨targets, ht, hplan⟩)
  | @scheduled plan g requested choices hp hl hf =>
    obtain ⟨targets, ht, hplan⟩ := Plan.ofRequest_eq_ok.mp hp
    obtain ⟨nodes, hm⟩ := Plan.exists_made hplan
    have hcourse : Schedule.OnCourse e.registry (e.setup request run start plan) _ :=
      Schedule.onCourse_run hm g requested choices
    have hblamed : Schedule.Blamed ((Schedule.start (e.setup request run start plan) g
        requested).run (e.setup request run start plan) choices) :=
      Schedule.blamed_run hm g requested choices
    refine (hblamed.failures_eq_nil_iff hm hcourse hf hc).trans ⟨fun hall => ?_, ?_⟩
    · exact ⟨targets, plan, ht, hplan, fun path hr => hall path ((hm.all path).mpr hr)⟩
    · rintro ⟨targets', plan', ht', hplan', hall⟩ path hpath
      cases ht.symm.trans ht'
      exact hall path ((hm.all path).mp hpath)

/-! ## Builds -/

/-- **The summary of a build and its finish tell the same**, in whatever order the workers take
their steps and whenever cancellation is requested.

The finish of the build, its last event and the only one that ends a build, tells of cancellation,
of the failures in the summary, or of a success, as the summary has it.  The failures are that of
the plan or else those of the tasks that failed, in the order of the plan.  And a build succeeds
exactly if nobody was told of cancellation, there was a plan, and everything that can be reached
from the targets was a success.

This is so unless the build breaks down.  Then there is no summary, and no event ends the build. -/
theorem buildAlong_summary (e : Engine) (request : Request) (g : Generator) (requested : Bool)
    (start : Timestamp) (choices : List Choice) :
    let asked := request.cancellation.isSome && requested
    let result := e.buildAlong choices request g requested start
    (¬ e.BreaksDown request asked → ∃ summary, result.summary? = some summary ∧
      (∃ earlier time r,
        result.events = earlier ++ [.progress ⟨time, (runOf g).descriptor, .finished r⟩] ∧
        (∀ event ∈ earlier, event.isBuildFinish = false) ∧
        (r.ending = .cancelled ↔ summary.outcome = .cancelled) ∧
        (∀ causes, r.ending = .failed causes ↔
          summary.outcome = .failed ∧ causes = summary.failures) ∧
        ∀ upToDate, r.ending = .success upToDate ↔
          upToDate = false ∧ summary.outcome = .succeeded) ∧
      (asked = true ∧ summary.tasks = [] ∧ summary.failures = [] ∨
        (∃ error, asked = false ∧ Plan.ofRequest e.registry request = .error error ∧
          summary.tasks = [] ∧ summary.failures = [.ofMessage error.message]) ∨
        ∃ plan, asked = false ∧ Plan.ofRequest e.registry request = .ok plan ∧
          summary.tasks.map (·.path) = plan.sorted ∧
          summary.failures.map some =
            (summary.tasks.filter (·.status.isFailed)).map (·.failure)) ∧
      (summary.outcome = .succeeded ↔ ¬ Sign.Observed result.trace ∧ ∃ targets plan,
        Plan.targetsOf e.registry request.tasks request.launchables = .ok targets ∧
        Plan.ofTargets e.registry targets = .ok plan ∧
        ∀ path, e.registry.Reachable targets path →
          ∃ report ∈ summary.tasks, report.path = path ∧ report.status.isSuccess = true)) ∧
    (e.BreaksDown request asked → result.summary? = none ∧
      ∀ event ∈ result.events, event.isBuildFinish = false) := by
  intro asked result
  rcases buildAlong_course e request g requested start choices with
    ⟨p, ended, hcourse, ht, hs, -⟩ | ⟨hdown, -⟩
  · have hcourse : Course e request (runOf g) start asked (some p) := hcourse
    have htrace : result.trace = around request (runOf g) start ended asked _ p.trace := ht
    refine ⟨fun _ => ⟨summaryOf p, hs, ?_, hcourse.failures, ?_⟩,
      fun hdown => absurd hdown hcourse.not_breaksDown⟩
    · obtain ⟨earlier, time, r, hevents, hearlier, hending⟩ := finish_of_summary hs
      refine ⟨earlier, time, r, hevents, hearlier, ?_, fun causes => ?_, fun upToDate => ?_⟩
      · rw [hending]
        exact BuildOutcome.ending_eq_cancelled
      · rw [hending]
        exact BuildOutcome.ending_eq_failed
      · rw [hending]
        exact BuildOutcome.ending_eq_success
    · rw [htrace, observed_around, ← hcourse.cancelled_iff, Bool.not_eq_true]
      exact hcourse.succeeded_iff
  · have hdown : e.BreaksDown request asked := hdown.breaksDown
    obtain ⟨-, hnone, -, hfinish⟩ := trace_of_breaksDown hdown
    exact ⟨fun hup => absurd hdown hup, fun _ => ⟨hnone, hfinish⟩⟩

/-- The sample comes to its end, and its task is a success. -/
theorem summary_sample :
    ¬ Sample.engine.BreaksDown Sample.request false ∧
      ∃ summary, Sample.result.summary? = some summary ∧ summary.outcome = .succeeded ∧
        ∃ report ∈ summary.tasks, report.path = ":app" ∧ report.status.isSuccess = true := by
  have hup : ¬ Sample.engine.BreaksDown Sample.request false :=
    fun hdown => absurd hdown.permits (by decide)
  obtain ⟨hbuilt, -⟩ := buildAlong_summary Sample.engine Sample.request ⟨1, 1⟩ false .epoch
    Sample.choices
  obtain ⟨summary, hs, -, -, hsucceeded⟩ := hbuilt hup
  have ho : summary.outcome = .succeeded := by
    have houtcome : Sample.result.summary?.map (·.outcome) = some .succeeded := by
      rw [Sample.result_eq]
      rfl
    change Sample.result.summary? = some summary at hs
    rw [hs] at houtcome
    exact Option.some.inj houtcome
  obtain ⟨-, targets, plan, ht, -, hall⟩ := hsucceeded.mp ho
  cases ht
  have hreachable : Sample.engine.registry.Reachable [":app"] ":app" :=
    ⟨":app", List.mem_singleton_self _, ":app", ⟨by decide, rfl⟩, .refl⟩
  exact ⟨hup, summary, hs, ho, hall ":app" hreachable⟩

/-- **A build of nothing may not succeed**: there is nothing to hand over, but one that asks for one
permit more than there can be comes to no summary. -/
theorem summary_overdrawn :
    ¬ ∀ (e : Engine) (request : Request) (g : Generator) (requested : Bool) (start : Timestamp)
      (choices : List Choice) (targets : List String) (plan : Plan),
      ¬ Sign.Observed (e.buildAlong choices request g requested start).trace →
      Plan.targetsOf e.registry request.tasks request.launchables = .ok targets →
      Plan.ofTargets e.registry targets = .ok plan →
      (∀ path, ¬ e.registry.Reachable targets path) →
      ∃ summary, (e.buildAlong choices request g requested start).summary? = some summary ∧
        summary.outcome = .succeeded := by
  intro hall
  have htargets : Plan.targetsOf Sample.overdrawn.registry none [] = .ok [] := rfl
  have hplan : Plan.ofTargets Sample.overdrawn.registry [] = .ok ⟨[], [], []⟩ := rfl
  have hdown : Sample.overdrawn.BreaksDown {} false :=
    ⟨rfl, ⟨_, Plan.ofRequest_eq_ok.mpr ⟨[], htargets, hplan⟩⟩, by decide⟩
  have hquiet :
      ¬ Sign.Observed (Sample.overdrawn.buildAlong [] {} ⟨1, 1⟩ false .epoch).trace := by
    rw [(trace_of_breaksDown hdown).1, observed_opening]
    exact Bool.false_ne_true
  obtain ⟨summary, hs, -⟩ := hall Sample.overdrawn {} ⟨1, 1⟩ false .epoch [] [] _ hquiet htargets
    hplan fun path ⟨target, hm, _⟩ => nomatch hm
  exact Option.some_ne_none _ (hs.symm.trans (trace_of_breaksDown hdown).2.1)

end Engine

end BuildStream
