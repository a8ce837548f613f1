/-
# What a client is told of a task

A worker calls the hook before its task, follows the action to a result and calls the hook after the
task with that result.  A panic is a result like any other, since it is caught and becomes an error.
So of every task that was handed over there are two hooks, and the second one tells how the action
ended (`Framed.about_of_after`).

Nothing of this is lost on the way.  What is sent for the two hooks is a start and a finish, found
among all events by the id of the run (`Framed.filter_events`), and every listener for tasks is told
of both, unless some listener closes the stream or hands over an error on whose report the
diagnostics break (`buildAlong_taskFinish`).

One result is set aside: an error that cannot be rendered.  A worker renders the error for its
report before it calls the hook, and gets no further.
-/
import BuildStream.Proofs.Engine.Cancellation
import BuildStream.Proofs.Engine.Identity

namespace BuildStream

/-! ## 1. Results -/

/-- **A result that can be rendered is reported**, and as a failure exactly if the action failed. -/
theorem RunState.exists_result? {result : ActionResult} (hr : result ≠ .fails .unrenderable)
    (began ended : Timestamp) : ∃ r, (ofResult began ended result).result? = some r ∧
      ((∃ causes, r.ending = .failed causes) ↔ result.isFailed = true) := by
  cases result with
  | returns outcome => cases outcome <;> exact ⟨_, rfl, by simp [ActionResult.isFailed]⟩
  | panics payload => exact ⟨_, rfl, fun _ => rfl, fun _ => ⟨_, rfl⟩⟩
  | fails fault =>
    cases fault with
    | unrenderable => exact absurd rfl hr
    | error chain => exact ⟨_, rfl, fun _ => rfl, fun _ => ⟨_, rfl⟩⟩

namespace Hook

variable (s : Subscriptions) (now : Timestamp)

theorem filterMap_transition?_started (d : Descriptor) :
    (started s now d).filterMap Event.transition? =
      if s.wants d.kind then [(d, .started)] else [] := by
  unfold started progressIf statusIf
  cases s.wants d.kind <;> cases s.status <;> rfl

theorem filterMap_transition?_finished (d : Descriptor) (r : OperationResult) :
    (finished s now d r).filterMap Event.transition? =
      if s.wants d.kind then [(d, .finished r)] else [] := by
  unfold finished progressIf statusIf
  cases s.wants d.kind <;> cases s.status <;> rfl

/-- The result that a hook tells of, if it can be determined. -/
def result? : Hook → Option OperationResult
  | afterBuild _ state => some state.result
  | afterTask _ state => state.result?
  | afterTest _ state => state.result?
  | _ => none

/-- The transition that a hook tells of, if its result can be determined. -/
def transition? (h : Hook) : Option (Descriptor × Progress) :=
  if h.isBefore then some (h.subject.descriptor, .started)
  else h.result?.map fun r => (h.subject.descriptor, .finished r)

/-- A hook after a run tells of a finish with its result. -/
theorem transition?_of_result (h : Hook) {r : OperationResult} (hb : h.isBefore = false)
    (hr : h.result? = some r) : h.transition? = some (h.subject.descriptor, .finished r) := by
  rw [transition?, hb, hr]
  rfl

/-- **What is sent for a hook** whose transition can be determined is that transition, if its kind
is wanted. -/
theorem filterMap_transition?_events {h : Hook} {t : Descriptor × Progress}
    (ht : h.transition? = some t) :
    (h.events s now).filterMap Event.transition? = if s.wants t.1.kind then [t] else [] := by
  have hstarted (d : Descriptor) :
      (if forwards s d.kind then started s now d else []).filterMap Event.transition? =
        if s.wants d.kind then [(d, .started)] else [] := by
    rw [if_forwards_started]
    exact filterMap_transition?_started s now d
  have hfinished (d : Descriptor) {state : RunState} {r : OperationResult}
      (hr : state.result? = some r) :
      (if forwards s d.kind then finished s now d (resultOf now d state) else []).filterMap
          Event.transition? =
        if s.wants d.kind then [(d, .finished r)] else [] := by
    rw [if_forwards_finished, resultOf, hr]
    exact filterMap_transition?_finished s now d r
  cases h with
  | beforeBuild b =>
    cases ht
    exact filterMap_transition?_started s now _
  | afterBuild b state =>
    cases ht
    exact filterMap_transition?_finished s now _ _
  | beforeTask run =>
    cases ht
    exact hstarted run.descriptor
  | afterTask run state =>
    obtain ⟨r, hr, rfl⟩ := Option.map_eq_some_iff.mp ht
    exact hfinished run.descriptor hr
  | beforeTest test =>
    cases ht
    exact hstarted test.descriptor
  | afterTest test state =>
    obtain ⟨r, hr, rfl⟩ := Option.map_eq_some_iff.mp ht
    exact hfinished test.descriptor hr

/-- **What is sent around a task** whose result is known: its start, and its finish with the
result. -/
theorem transitions_task {s : Subscriptions} (hw : s.task = true) (before after : Timestamp)
    (run : TaskRun) {state : RunState} {r : OperationResult} (hr : state.result? = some r) :
    (events s before (.beforeTask run) ++
        events s after (.afterTask run state)).filterMap Event.transition? =
      [(run.descriptor, .started), (run.descriptor, .finished r)] := by
  have hwants : s.wants run.descriptor.kind = true := hw
  rw [List.filterMap_append, filterMap_transition?_events s before rfl,
    filterMap_transition?_events s after (transition?_of_result (.afterTask run state) rfl hr)]
  simp only [hwants, if_true, subject, Subject.descriptor]
  rfl

end Hook

/-! ## 2. The trace of one run -/

/-- The transitions of an id are those of its events. -/
theorem Event.filter_transitions (id : OperationId) (events : List Event) :
    ((events.filterMap Event.transition?).filter fun t => decide (t.1.id = id)) =
      (events.filter fun e => decide (e.id = id)).filterMap Event.transition? := by
  rw [List.filter_filterMap, List.filterMap_filter]
  refine List.filterMap_congr fun e _ => ?_
  cases e with
  | progress p => by_cases hid : p.descriptor.id = id <;> simp [transition?, Event.id, hid]
  | status p => simp [transition?]

namespace Framed

variable {request : Request} {start : Timestamp} {registry : Registry} {build : BuildRun}
  {inner trace : List (Sign Event)}

/-- **The events with the id of a run** are those that were sent for it. -/
theorem filter_events (h : Framed (Engine.reporter request start) registry build inner trace)
    {sign : Sign Event} (hs : sign ∈ trace) {subject : Subject}
    (hsub : sign.subject? = some subject) :
    ((trace.filterMap Sign.sent?).filter fun e => decide (e.id = subject.descriptor.id)) =
      (trace.filter (Sign.isAbout [subject])).filterMap Sign.sent? := by
  rw [List.filter_filterMap, List.filterMap_filter]
  refine List.filterMap_congr fun other ho => ?_
  cases other with
  | sent hook e =>
    obtain ⟨now, he⟩ := h.sent ho
    have hsame : e.id = subject.descriptor.id ↔ hook.subject = subject := by
      rw [(Hook.id_of_mem_events he).1]
      exact ⟨h.subject_inj ho hs rfl hsub, fun heq => heq ▸ rfl⟩
    by_cases heq : hook.subject = subject <;>
      simp [Sign.sent?, Sign.isAbout, Sign.subject?, hsame, heq]
  | _ => simp [Sign.sent?]

/-- A task whose second hook was called shows its two hooks and nothing else. -/
theorem filter_task_of_after
    (h : Framed (Engine.reporter request start) registry build inner trace) {run : TaskRun}
    {state : RunState} (hc : .called (.afterTask run state) ∈ trace) : ∃ before after,
      trace.filter (Sign.isAbout [.task run]) =
        (Engine.reporter request start).signs before (.beforeTask run) ++
          (Engine.reporter request start).signs after (.afterTask run state) := by
  have hsub : (Sign.called (.afterTask run state) : Sign Event).subject? = some (.task run) := rfl
  obtain ⟨before, last, hf, hl⟩ := h.filter_subject hc hsub
  have hm : .called (.afterTask run state) ∈ trace.filter (Sign.isAbout [.task run]) :=
    List.mem_filter.mpr ⟨hc, Sign.isAbout_iff.mpr ⟨_, List.mem_singleton_self _, rfl⟩⟩
  have hhook {now : Timestamp} {hook : Hook}
      (hin : .called (.afterTask run state) ∈ (Engine.reporter request start).signs now hook) :
      hook = .afterTask run state := by
    rw [← Sign.mem_hooks, Sign.hooks_signs, List.mem_singleton] at hin
    exact hin.symm
  rw [hf] at hm
  rcases List.mem_append.mp hm with hm | hm
  · exact nomatch hhook hm
  · rcases hl with ⟨after, hook, rfl, -, -⟩ | ⟨rfl, -⟩
    · obtain rfl := hhook hm
      exact ⟨before, after, hf⟩
    · exact nomatch hm

section After

variable (h : Framed (Engine.reporter request start) registry build inner trace) {run : TaskRun}
  {state : RunState} (hc : .called (.afterTask run state) ∈ trace)
include h hc

theorem about_of_after :
    Hook.about (.task run) (Sign.hooks trace) = [.beforeTask run, .afterTask run state] := by
  obtain ⟨before, after, hf⟩ := h.filter_task_of_after hc
  rw [Sign.hooks, Sign.about_filterMap (fun _ _ => Sign.subject?_of_called?), hf,
    List.filterMap_append, ← Sign.hooks, ← Sign.hooks, Sign.hooks_signs, Sign.hooks_signs]
  rfl

variable {r : OperationResult} (hr : state.result? = some r)
include hr

/-- **A client that wants to know of tasks** is sent the start and the finish of the run. -/
theorem transitions_of_after (hw : request.subscriptions.task = true) :
    (((trace.filterMap Sign.sent?).filterMap Event.transition?).filter fun t =>
      decide (t.1.id = run.id)) = [(run.descriptor, .started), (run.descriptor, .finished r)] := by
  obtain ⟨before, after, hf⟩ := h.filter_task_of_after hc
  have hevents : ((trace.filterMap Sign.sent?).filter fun e => decide (e.id = run.id)) =
      (trace.filter (Sign.isAbout [.task run])).filterMap Sign.sent? :=
    h.filter_events hc rfl
  rw [Event.filter_transitions, hevents, hf, List.filterMap_append, Engine.filterMap_sent?_signs,
    Engine.filterMap_sent?_signs]
  exact Hook.transitions_task hw before after run hr

/-- ...and each of its listeners for tasks is told of both. -/
theorem told_of_after {past : List Call} (hn : request.listeners.NeverClose)
    (hu : ∀ o ∈ (Stream.feedAll request.listeners past {} (trace.filterMap Sign.sent?)).2,
      o.broken = false) {place : Nat} (hplace : place < request.listeners.task.length) :
    ((Stream.transitions (fun _ => place)
      (Stream.feedAll request.listeners past {} (trace.filterMap Sign.sent?)).2).filter fun t =>
        decide (t.1.id = run.id)) =
      [(run.descriptor, .started), (run.descriptor, .finished r)] := by
  obtain ⟨-, -, hd⟩ := Stream.feedAll_orderly hn h.orderly past
  have hw : request.subscriptions.task = true := by
    have hne : request.listeners.task ≠ [] := List.ne_nil_of_length_pos (by omega)
    simpa [Request.subscriptions, Listeners.subscriptions] using hne
  have hhears (progress : Progress) :
      request.listeners.hears (fun _ => place) (.ofTransition (run.descriptor, progress)) = true :=
    decide_eq_true hplace
  rw [Stream.transitions_of_delivered hd hu, List.filter_comm, h.transitions_of_after hc hr hw]
  simp [hhears]

end After

/-- A start of a task is sent for a task that was handed over. -/
theorem handed_of_started (h : Framed (Engine.reporter request start) registry build inner trace)
    {e : Event} (he : e ∈ trace.filterMap Sign.sent?) {d : Descriptor}
    (hd : e.transition? = some (d, .started)) (hk : d.kind = .task) :
    ∃ run, .handed run ∈ trace ∧ d = run.descriptor := by
  have hm : e.mark? = some ⟨d, true⟩ := by
    rw [Event.mark?_eq_map, hd]
    rfl
  obtain ⟨hook, hc, hmark⟩ := h.hook_of_mark (List.mem_filterMap.mpr ⟨e, he, hm⟩)
  obtain rfl : d = hook.subject.descriptor := congrArg Mark.descriptor hmark
  cases hsub : hook.subject with
  | build b =>
    rw [hsub] at hk
    exact nomatch hk
  | test x =>
    rw [hsub] at hk
    exact nomatch hk
  | task t =>
    have hcalled : (Sign.called hook : Sign Event).subject? = some (.task t) := congrArg some hsub
    have hhanded := h.completed.handed (h.mem_inner hc hcalled rfl) hcalled rfl
    obtain ⟨began, asked, ended, state, hframe⟩ := h.frame
    exact ⟨t, by simp [hframe, hhanded], rfl⟩

end Framed

namespace Engine

/-! ## 3. Builds -/

/-- **What a client is told of a task.**

Whatever the request asks for and in whatever order the workers take their steps: the action of a
task that was handed over ended with a result, given the answers that it got.  If that result can be
rendered, the hook before the task was called once and then, once, the hook after it, with the state
that the result makes.  A client that subscribed to tasks is sent one start and then one finish
under the id of the run, and each of its listeners for tasks is told of both, if no listener closes
the stream and all reports of listeners that fail get through.  The finish has the result of that
state, and it is a failure exactly if the action failed or panicked.

A start of a task is sent for nothing else. -/
theorem buildAlong_taskFinish (e : Engine) (request : Request) (g : Generator) (requested : Bool)
    (start : Timestamp) (choices : List Choice) (past : List Call)
    (hb : (e.buildAlong choices request g requested start).stamps.length ≤ UInt64.size) :
    let result := e.buildAlong choices request g requested start
    let outcomes := (Stream.feedAll request.listeners past {} result.events).2
    (∀ run, .handed run ∈ result.trace →
      ∃ task ended, e.registry.get? run.path = some task ∧
        task.action.given (Sign.answers (result.trace.filter fun sign =>
          decide (sign.worker? = some run))) = some (ended, []) ∧
        (ended ≠ .fails .unrenderable → ∃ began stopped r,
          let state := RunState.ofResult began stopped ended
          let transitions := [(run.descriptor, .started), (run.descriptor, .finished r)]
          Hook.about (.task run) result.hooks = [.beforeTask run, .afterTask run state] ∧
          state.result? = some r ∧
          ((∃ causes, r.ending = .failed causes) ↔ ended.isFailed = true) ∧
          (request.subscriptions.task = true →
            ((result.events.filterMap Event.transition?).filter fun t =>
              decide (t.1.id = run.id)) = transitions) ∧
          (request.listeners.NeverClose → (∀ o ∈ outcomes, o.broken = false) →
            ∀ place < request.listeners.task.length,
              ((Stream.transitions (fun _ => place) outcomes).filter fun t =>
                decide (t.1.id = run.id)) = transitions))) ∧
    ∀ event ∈ result.events, ∀ d, event.transition? = some (d, .started) → d.kind = .task →
      ∃ run, .handed run ∈ result.trace ∧ d = run.descriptor := by
  intro result outcomes
  refine ⟨fun run hr => ?_, fun event he d hd hk => ?_⟩
  · obtain ⟨inner, h⟩ := framed_of_handed hb hr
    obtain ⟨su, s, report, summary, ht, hregistry, -, -, hpart, hown, -, -⟩ := buildAlong_tracks hr
    obtain ⟨-, -, task, ended, hg, hgiven, -, hlast⟩ := ht.ended
    rw [← hown] at hgiven
    refine ⟨task, ended, hregistry ▸ hg, hgiven, fun hrender => ?_⟩
    obtain ⟨began, stopped, hc⟩ := hlast hrender
    obtain ⟨r, hresult, hfailed⟩ := RunState.exists_result? hrender began stopped
    have hc : .called (.afterTask run (.ofResult began stopped ended)) ∈ result.trace := hpart hc
    exact ⟨began, stopped, r, h.about_of_after hc, hresult, hfailed,
      h.transitions_of_after hc hresult, fun hn hu place => h.told_of_after hc hresult hn hu⟩
  · rcases framed_cases hb with ⟨summary, inner, -, h⟩ | ⟨-, ht⟩
    · exact h.handed_of_started he hd hk
    · -- what is sent before the build is planned is of the build
      have he : event ∈ Hook.events request.subscriptions start (.beforeBuild (runOf g)) := by
        rwa [← events_of_opening ht]
      have hm : event.mark? = some ⟨d, true⟩ := by
        rw [Event.mark?_eq_map, hd]
        rfl
      obtain rfl : d = (runOf g).descriptor :=
        congrArg Mark.descriptor (Hook.mark_of_mem_events he hm)
      exact nomatch hk

/-! ### A task that fails -/

namespace Failing

/-- An engine with a task that ends with a result. -/
def engine (ended : ActionResult) : Engine where
  registry := .ofTasks [{ path := ":app", action := .finish ended }] []
  options := { concurrency := 1 }
  lost := fun _ => "task 1 panicked"

/-- A request for the task, with a listener for tasks. -/
def request (reaction : Reaction) : Request where
  tasks := some [":app"]
  listeners := { task := [⟨"task", fun _ _ => reaction⟩] }

/-- The scheduler hands the task over, its worker runs it, and the wave ends. -/
def choices : List Choice :=
  [.scheduler, .scheduler] ++ List.replicate 9 (.worker 0) ++ [.scheduler]

/-- The build. -/
def result (ended : ActionResult) (reaction : Reaction) : BuildResult :=
  (engine ended).buildAlong choices (request reaction) ⟨1, 1⟩ false .epoch

/-- The run of the task. -/
def run : TaskRun := ⟨⟨1, 2⟩, ":app", none, ⟨⟨1, 1⟩⟩⟩

/-- The task fails. -/
def broken : ActionResult := .error "broken"

/-- The task fails, and its error cannot be rendered. -/
def unrenderable : ActionResult := .fails .unrenderable

/-- The engine does not see how the listener reacts. -/
theorem result_eq_returns (ended : ActionResult) (reaction : Reaction) :
    result ended reaction = result ended {} := rfl

theorem broken_eq : result broken {} =
    (engine broken).buildBy (fun su s => s.run su choices) (request {}) ⟨1, 1⟩ false
      .epoch := by
  refine buildAlong_of_isFinished ?_
  intro plan hp
  cases hp
  rfl

theorem unrenderable_eq : result unrenderable {} =
    (engine unrenderable).buildBy (fun su s => s.run su choices) (request {}) ⟨1, 1⟩ false
      .epoch := by
  refine buildAlong_of_isFinished ?_
  intro plan hp
  cases hp
  rfl

theorem length_unrenderable : (result unrenderable {}).stamps.length ≤ UInt64.size := by
  rw [unrenderable_eq]
  decide

theorem handed_unrenderable : .handed run ∈ (result unrenderable {}).trace := by
  rw [unrenderable_eq, ← Sign.mem_handed]
  exact List.mem_singleton_self _

theorem length_broken (reaction : Reaction) :
    (result broken reaction).stamps.length ≤ UInt64.size := by
  rw [result_eq_returns, broken_eq]
  decide

theorem handed_broken (reaction : Reaction) : .handed run ∈ (result broken reaction).trace := by
  rw [result_eq_returns, broken_eq, ← Sign.mem_handed]
  exact List.mem_singleton_self _

theorem passive : (request {}).listeners.Passive := by
  intro kind l hl past sight
  cases kind with
  | task => rw [List.mem_singleton.mp hl]
  | _ => exact nomatch hl

end Failing

/-- The listener is told of the start of the task that fails, and of its failure. -/
theorem taskFinish_broken :
    (Failing.result Failing.broken {}).stamps.length ≤ UInt64.size ∧
      .handed Failing.run ∈ (Failing.result Failing.broken {}).trace ∧
      (Failing.request {}).listeners.NeverClose ∧
      ∃ r, (∃ causes, r.ending = .failed causes) ∧
        ((Stream.transitions (fun _ => 0) (Stream.feedAll (Failing.request {}).listeners [] {}
          (Failing.result Failing.broken {}).events).2).filter fun t =>
            decide (t.1.id = Failing.run.id)) =
          [(Failing.run.descriptor, .started), (Failing.run.descriptor, .finished r)] := by
  have hb := Failing.length_broken {}
  have hr := Failing.handed_broken {}
  have hu : ∀ o ∈ (Stream.feedAll (Failing.request {}).listeners [] {}
      (Failing.result Failing.broken {}).events).2, o.broken = false :=
    fun o ho => Stream.broken_feedAll Failing.passive.neverBreak ho
  obtain ⟨hruns, -⟩ := buildAlong_taskFinish (Failing.engine Failing.broken) (Failing.request {})
    ⟨1, 1⟩ false .epoch Failing.choices [] hb
  obtain ⟨task, ended, hg, hgiven, hrender⟩ := hruns Failing.run hr
  obtain rfl : { path := ":app", action := .finish Failing.broken } = task := Option.some.inj hg
  obtain ⟨rfl, -⟩ := Prod.mk.inj (Option.some.inj hgiven)
  obtain ⟨began, stopped, r, -, -, hfailed, -, htold⟩ := hrender (fun h => nomatch h)
  exact ⟨hb, hr, Failing.passive.neverClose, r, hfailed.mpr rfl,
    htold Failing.passive.neverClose hu 0 (by decide)⟩

/-- **A finish may be missing.**  Where the error of the action of a task cannot be rendered, the
hook after the task is not called, and a client that subscribed to tasks is sent a start and no
finish.  And a listener that closes the stream when it is told of the start of a task is told of no
finish. -/
theorem taskFinish_missing :
    (¬ ∀ (e : Engine) (request : Request) (g : Generator) (requested : Bool) (start : Timestamp)
      (choices : List Choice),
      let result := e.buildAlong choices request g requested start
      result.stamps.length ≤ UInt64.size → ∀ run, .handed run ∈ result.trace →
        ∃ state, Hook.about (.task run) result.hooks = [.beforeTask run, .afterTask run state]) ∧
    (¬ ∀ (e : Engine) (request : Request) (g : Generator) (requested : Bool) (start : Timestamp)
      (choices : List Choice), request.subscriptions.task = true →
      let result := e.buildAlong choices request g requested start
      result.stamps.length ≤ UInt64.size → ∀ run, .handed run ∈ result.trace →
        ∃ r, (run.descriptor, .finished r) ∈ result.events.filterMap Event.transition?) ∧
    ¬ ∀ (e : Engine) (request : Request) (g : Generator) (requested : Bool) (start : Timestamp)
      (choices : List Choice) (place : Nat), place < request.listeners.task.length →
      let result := e.buildAlong choices request g requested start
      result.stamps.length ≤ UInt64.size → ∀ run, .handed run ∈ result.trace →
        (run.descriptor, .started) ∈ Stream.transitions (fun _ => place)
          (Stream.feedAll request.listeners [] {} result.events).2 →
        ∃ r, (run.descriptor, .finished r) ∈ Stream.transitions (fun _ => place)
          (Stream.feedAll request.listeners [] {} result.events).2 := by
  refine ⟨fun hall => ?_, fun hall => ?_, fun hall => ?_⟩
  · have habout : Hook.about (.task Failing.run)
        (Failing.result Failing.unrenderable {}).hooks = [.beforeTask Failing.run] := by
      rw [Failing.unrenderable_eq]
      rfl
    obtain ⟨state, hstate⟩ := hall (Failing.engine Failing.unrenderable) (Failing.request {})
      ⟨1, 1⟩ false .epoch Failing.choices Failing.length_unrenderable Failing.run
      Failing.handed_unrenderable
    have hlength := congrArg List.length (habout.symm.trans hstate)
    exact absurd hlength (by simp)
  · have hsent : ((Failing.result Failing.unrenderable {}).events.filterMap Event.transition?).filter
        (fun t => decide (t.1.id = Failing.run.id)) = [(Failing.run.descriptor, .started)] := by
      rw [Failing.unrenderable_eq]
      rfl
    obtain ⟨r, hr⟩ := hall (Failing.engine Failing.unrenderable) (Failing.request {}) ⟨1, 1⟩ false
      .epoch Failing.choices rfl Failing.length_unrenderable Failing.run Failing.handed_unrenderable
    have hone : (Failing.run.descriptor, Progress.finished r) ∈
        [(Failing.run.descriptor, .started)] :=
      hsent ▸ List.mem_filter.mpr ⟨hr, decide_eq_true rfl⟩
    exact nomatch List.mem_singleton.mp hone
  · have htold : Stream.transitions (fun _ => 0) (Stream.feedAll
        (Failing.request { closes := true }).listeners [] {}
        (Failing.result Failing.broken { closes := true }).events).2 =
          [(Failing.run.descriptor, .started)] := by
      rw [Failing.result_eq_returns, Failing.broken_eq]
      rfl
    obtain ⟨r, hr⟩ := hall (Failing.engine Failing.broken) (Failing.request { closes := true })
      ⟨1, 1⟩ false .epoch Failing.choices 0 (by decide) (Failing.length_broken { closes := true })
      Failing.run (Failing.handed_broken { closes := true }) (htold ▸ List.mem_singleton_self _)
    have hone := List.mem_singleton.mp (htold ▸ hr)
    exact nomatch hone

end Engine

end BuildStream
