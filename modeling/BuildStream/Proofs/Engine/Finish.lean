/-
# The finish of a build

How a build ended is decided twice from what is known of it: for the summary that the engine
returns, and for the event that ends the stream.  The two agree (`ending_eq`).  The event is the
last that is sent, and no other ends a build, since whatever is sent between the two hooks of a
build is made of hooks of tasks and tests (`finish_of_summary`).  A build without a summary sends
no such event (`trace_of_breaksDown`).
-/
import BuildStream.Proofs.Engine.Delivery
import BuildStream.Proofs.Schedule.Hooks

namespace BuildStream

/-- How the finish of a build tells of an outcome. -/
def BuildOutcome.ending (failures : List Failure) : BuildOutcome → Ending
  | succeeded => .success false
  | failed => .failed failures
  | cancelled => .cancelled

theorem BuildOutcome.ending_eq_cancelled {failures : List Failure} {outcome : BuildOutcome} :
    outcome.ending failures = .cancelled ↔ outcome = .cancelled := by
  cases outcome <;> simp [ending]

namespace Engine

/-- **The two decisions agree.** -/
theorem ending_eq (p : Progressed) (startTime endTime : Timestamp) :
    BuildState.ending
        { startTime, endTime, cancelled := p.cancelled, failures := p.failures } =
      (outcomeOf p).ending p.failures := by
  unfold BuildState.ending outcomeOf
  cases p.cancelled with
  | true => rfl
  | false => cases p.failures.isEmpty <;> rfl

variable {e : Engine} {request : Request} {run : BuildRun} {start : Timestamp} {asked : Bool}
  {p : Progressed} {g : Generator} {requested : Bool} {choices : List Choice}

theorem outcomeOf_eq_cancelled : outcomeOf p = .cancelled ↔ p.cancelled = true := by
  unfold outcomeOf
  cases p.cancelled with
  | true => exact ⟨fun _ => rfl, fun _ => rfl⟩
  | false => cases p.failures.isEmpty <;> exact ⟨(fun h => nomatch h), fun h => nomatch h⟩

/-- Nothing that is sent between the two hooks of a build ends it. -/
theorem Course.isBuildFinish (h : Course e request run start asked (some p)) {event : Event}
    (he : event ∈ p.trace.filterMap Sign.sent?) : event.isBuildFinish = false := by
  cases h with
  | cancelled => exact nomatch he
  | unplannable => exact nomatch he
  | scheduled g requested choices hp hl hf =>
    obtain ⟨sign, hs, hsent⟩ := List.mem_filterMap.mp he
    obtain ⟨hook, rfl⟩ := Sign.eq_sent hsent
    obtain ⟨targets, nodes, hm⟩ := Plan.exists_made_of_ofRequest hp
    obtain ⟨⟨task, ht⟩, now, hm⟩ :=
      (Schedule.onCourse_run hm g requested choices).followed.sent hs
    exact Hook.isBuildFinish_of_mem_events hm ht

/-- What is sent for the start of a build does not end it. -/
theorem isBuildFinish_of_mem_opening {event : Event}
    (he : event ∈ Hook.events request.subscriptions start (.beforeBuild run)) :
    event.isBuildFinish = false := by
  rcases List.mem_cons.mp he with rfl | he
  · rfl
  · exact Hook.isBuildFinish_of_mem_statusIf he

/-- **The finish of a build** that has a summary is the last of its events and the only one that
ends a build, and it tells of the outcome and the failures in the summary. -/
theorem finish_of_summary {summary : Summary}
    (hs : (e.buildAlong choices request g requested start).summary? = some summary) :
    ∃ earlier time r, (e.buildAlong choices request g requested start).events =
        earlier ++ [.progress ⟨time, (runOf g).descriptor, .finished r⟩] ∧
      (∀ event ∈ earlier, event.isBuildFinish = false) ∧
      r.ending = summary.outcome.ending summary.failures := by
  obtain ⟨p, ended, hcourse, ht, hp, -⟩ :=
    (buildAlong_course e request g requested start choices).resolve_right fun hdown =>
      Option.some_ne_none _ (hs.symm.trans hdown.2.2.1)
  obtain rfl : summaryOf p = summary := Option.some.inj (hp.symm.trans hs)
  let s := request.subscriptions
  let d := (runOf g).descriptor
  let state : BuildState :=
    { startTime := start, endTime := ended, cancelled := p.cancelled, failures := p.failures }
  have hevents : (e.buildAlong choices request g requested start).events =
      Hook.events s start (.beforeBuild (runOf g)) ++
        (p.trace.filterMap Sign.sent? ++ Hook.events s ended (.afterBuild (runOf g) state)) := by
    simp only [BuildResult.events, ht]
    simp only [List.filterMap_cons, List.filterMap_append, filterMap_sent?_signs, Sign.sent?]
    rfl
  have hafter : Hook.events s ended (.afterBuild (runOf g) state) =
      Hook.statusIf s ended (.finished d.id) ++
        [.progress ⟨ended, d, .finished state.result⟩] := rfl
  refine ⟨Hook.events s start (.beforeBuild (runOf g)) ++
    (p.trace.filterMap Sign.sent? ++ Hook.statusIf s ended (.finished d.id)), ended, state.result,
    ?_, ?_, ending_eq p start ended⟩
  · rw [hevents, hafter, List.append_assoc, List.append_assoc]
  · intro event he
    simp only [List.mem_append] at he
    rcases he with he | he | he
    · exact isBuildFinish_of_mem_opening he
    · exact hcourse.isBuildFinish he
    · exact Hook.isBuildFinish_of_mem_statusIf he

/-- A build without a summary sends no finish, calls no hook after its start and hands over
nothing. -/
theorem trace_of_breaksDown
    (h : e.BreaksDown request (request.cancellation.isSome && requested)) :
    let result := e.buildAlong choices request g requested start
    result.trace = opening request (runOf g) requested start ∧ result.summary? = none ∧
      result.hooks = [.beforeBuild (runOf g)] ∧
      ∀ event ∈ result.events, event.isBuildFinish = false := by
  intro result
  rcases buildAlong_course e request g requested start choices with
    ⟨p, ended, hcourse, -⟩ | ⟨-, ht, hs, -⟩
  · exact absurd h hcourse.not_breaksDown
  · refine ⟨ht, hs, hooks_of_opening ht, ?_⟩
    rw [events_of_opening ht]
    exact fun event he => isBuildFinish_of_mem_opening he

end Engine

end BuildStream
