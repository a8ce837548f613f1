/-
# The status line of a build

The hooks of a build come in brackets.  But between the call of a hook and the change that is sent
for it other workers may send theirs, so the changes do not arrive in the order of the calls, and
what is known of the hooks is put together anew, one run after the other: the changes of a run
arrive in the order of its hooks (`Framed.about_cases`).  So they come in brackets as well
(`Framed.bracketed`), and there is one for every hook (`Framed.arrivals_perm`).

A task whose error cannot be rendered has no hook after it, and its line would stay for the rest of
the build.  A build that breaks down has none either, and its line stays.
-/
import BuildStream.Proofs.Engine.Running

namespace BuildStream

/-! ## 1. The changes that arrive -/

namespace Hook

variable (s : Subscriptions) (now : Timestamp)

theorem filterMap_change?_started (d : Descriptor) :
    (started s now d).filterMap Event.change? =
      if s.status then [.started d.id d.displayName] else [] := by
  unfold started progressIf statusIf
  cases s.wants d.kind <;> cases s.status <;> rfl

theorem filterMap_change?_finished (d : Descriptor) (r : OperationResult) :
    (finished s now d r).filterMap Event.change? = if s.status then [.finished d.id] else [] := by
  unfold finished progressIf statusIf
  cases s.wants d.kind <;> cases s.status <;> rfl

/-- **What is sent for a hook** changes the status lines as the hook says, if that is wanted. -/
theorem filterMap_change?_events (hook : Hook) :
    (hook.events s now).filterMap Event.change? = if s.status then [hook.change] else [] := by
  rcases hook.events_cases s now with ⟨hb, he⟩ | ⟨hb, r, he⟩
  · rw [he, change, hb]
    exact filterMap_change?_started s now _
  · rw [he, change, hb]
    exact filterMap_change?_finished s now _ r

theorem change_of_mem_events {s : Subscriptions} {now : Timestamp} {hook : Hook} {e : Event}
    (he : e ∈ hook.events s now) {change : StatusChange} (hc : e.change? = some change) :
    change = hook.change := by
  have hmem : change ∈ (hook.events s now).filterMap Event.change? :=
    List.mem_filterMap.mpr ⟨e, he, hc⟩
  rw [filterMap_change?_events] at hmem
  split at hmem
  · exact List.mem_singleton.mp hmem
  · exact nomatch hmem

end Hook

namespace Sign

/-- The hook whose change of the status lines is sent. -/
def arrival? : Sign Event → Option Hook
  | sent hook e => e.change?.map fun _ => hook
  | _ => none

/-- The hooks whose changes of the status lines were sent, in the order in which these arrive. -/
def arrivals (signs : List (Sign Event)) : List Hook := signs.filterMap arrival?

/-- The hooks of one run, picked from the signs in some way, are picked from the signs of the run. -/
theorem about_filterMap {f : Sign Event → Option Hook}
    (hf : ∀ sign hook, f sign = some hook → sign.subject? = some hook.subject) (s : Subject)
    (signs : List (Sign Event)) :
    Hook.about s (signs.filterMap f) = (signs.filter (isAbout [s])).filterMap f := by
  rw [Hook.about, List.filter_filterMap, List.filterMap_filter]
  refine List.filterMap_congr fun sign _ => ?_
  cases h : f sign with
  | none => simp
  | some hook => simp [isAbout, hf sign hook h, Option.filter]

theorem subject?_of_arrival? {sign : Sign Event} {hook : Hook} (h : sign.arrival? = some hook) :
    sign.subject? = some hook.subject := by
  cases sign with
  | sent other e =>
    obtain ⟨-, -, rfl⟩ := Option.map_eq_some_iff.mp h
    rfl
  | _ => exact nomatch h

theorem subject?_of_called? {sign : Sign Event} {hook : Hook} (h : sign.called? = some hook) :
    sign.subject? = some hook.subject := by
  rw [eq_called h]
  rfl

/-- Where the status is wanted, the change of a hook arrives once. -/
theorem arrivals_signs {request : Request} (hw : request.subscriptions.status = true)
    (start now : Timestamp) (hook : Hook) :
    arrivals ((Engine.reporter request start).signs now hook) = [hook] := by
  have hall := Hook.filterMap_change?_events request.subscriptions now hook
  rw [hw, if_pos rfl] at hall
  have hmap : (hook.events request.subscriptions now).filterMap (fun e => arrival? (.sent hook e)) =
      ((hook.events request.subscriptions now).filterMap Event.change?).map fun _ => hook :=
    (List.map_filterMap ..).symm
  rw [hall] at hmap
  rw [arrivals, Reporter.signs, List.filterMap_cons, List.filterMap_map]
  exact hmap

end Sign

namespace Framed

variable {request : Request} {start : Timestamp} {registry : Registry} {build : BuildRun}
  {inner trace : List (Sign Event)}

/-- **The changes that arrive** are those of their hooks. -/
theorem changes_eq (h : Framed (Engine.reporter request start) registry build inner trace) :
    Stream.changes (trace.filterMap Sign.sent?) = (Sign.arrivals trace).map Hook.change := by
  rw [Stream.changes, List.filterMap_filterMap, Sign.arrivals, List.map_filterMap]
  refine List.filterMap_congr fun sign hs => ?_
  cases sign with
  | sent hook e =>
    obtain ⟨now, he⟩ := h.sent hs
    cases hc : e.change? with
    | none => simp [Sign.sent?, Sign.arrival?, hc]
    | some change =>
      obtain rfl := Hook.change_of_mem_events he hc
      simp [Sign.sent?, Sign.arrival?, hc]
  | _ => rfl

/-- A sign of each run, and what there is of it: two hooks in brackets, each called and each heard
of. -/
theorem about_cases (h : Framed (Engine.reporter request start) registry build inner trace)
    (hw : request.subscriptions.status = true)
    (hr : ∀ sign ∈ trace, ∀ s, sign.subject? = some s → ¬ s.Lost registry) {sign : Sign Event}
    (hs : sign ∈ trace) {s : Subject} (hsub : sign.subject? = some s) :
    ∃ last : Hook, last.isBefore = false ∧
      Hook.about s (Sign.arrivals trace) = [s.before, last] ∧
      Hook.about s (Sign.hooks trace) = [s.before, last] := by
  obtain ⟨now, last, hf, hl⟩ := h.filter_subject hs hsub
  obtain ⟨after, hook, rfl, -, hb⟩ := hl.resolve_right fun hl => hr sign hs s hsub hl.2
  refine ⟨hook, hb, ?_, ?_⟩
  · rw [Sign.arrivals, Sign.about_filterMap (fun _ _ => Sign.subject?_of_arrival?), hf,
      List.filterMap_append, ← Sign.arrivals, ← Sign.arrivals, Sign.arrivals_signs hw,
      Sign.arrivals_signs hw]
    rfl
  · rw [Sign.hooks, Sign.about_filterMap (fun _ _ => Sign.subject?_of_called?), hf,
      List.filterMap_append, ← Sign.hooks, ← Sign.hooks, Sign.hooks_signs, Sign.hooks_signs]
    rfl

/-- **The changes that arrive come in brackets.** -/
theorem bracketed (h : Framed (Engine.reporter request start) registry build inner trace)
    (hw : request.subscriptions.status = true)
    (hr : ∀ sign ∈ trace, ∀ s, sign.subject? = some s → ¬ s.Lost registry) :
    Bracketed (Sign.arrivals trace) where
  pair hook hm := by
    obtain ⟨sign, hs, ha⟩ := List.mem_filterMap.mp hm
    obtain ⟨last, hb, hpair, -⟩ := h.about_cases hw hr hs (Sign.subject?_of_arrival? ha)
    exact ⟨last, hb, hpair⟩
  ids hook hm other hm' hid := by
    obtain ⟨sign, hs, ha⟩ := List.mem_filterMap.mp hm
    obtain ⟨sign', hs', ha'⟩ := List.mem_filterMap.mp hm'
    exact h.subject_inj hs hs' (Sign.subject?_of_arrival? ha) (Sign.subject?_of_arrival? ha') hid

/-- **A change arrives for every hook**, though not in the order of the calls. -/
theorem arrivals_perm (h : Framed (Engine.reporter request start) registry build inner trace)
    (hw : request.subscriptions.status = true)
    (hr : ∀ sign ∈ trace, ∀ s, sign.subject? = some s → ¬ s.Lost registry) :
    (Sign.arrivals trace).Perm (Sign.hooks trace) := by
  classical
  refine List.perm_iff_count.mpr fun hook => ?_
  have hcount (hooks : List Hook) :
      hooks.count hook = (Hook.about hook.subject hooks).count hook := by
    rw [Hook.about, List.count_filter (by simp)]
  rw [hcount, hcount (Sign.hooks trace)]
  by_cases hs : ∃ sign ∈ trace, sign.subject? = some hook.subject
  · obtain ⟨sign, hs, hsub⟩ := hs
    obtain ⟨last, -, ha, hh⟩ := h.about_cases hw hr hs hsub
    rw [ha, hh]
  · have hnone : trace.filter (Sign.isAbout [hook.subject]) = [] := by
      refine List.filter_eq_nil_iff.mpr fun sign hm ha => hs ⟨sign, hm, ?_⟩
      obtain ⟨s, hmem, hsub⟩ := Sign.isAbout_iff.mp ha
      rwa [List.mem_singleton.mp hmem] at hsub
    rw [Sign.arrivals, Sign.hooks, Sign.about_filterMap (fun _ _ => Sign.subject?_of_arrival?),
      Sign.about_filterMap (fun _ _ => Sign.subject?_of_called?), hnone]
    rfl

/-- The change of the build arrives first and last. -/
theorem arrivals_frame (h : Framed (Engine.reporter request start) registry build inner trace)
    (hw : request.subscriptions.status = true) : ∃ state, Sign.arrivals trace =
      .beforeBuild build :: (Sign.arrivals inner ++ [.afterBuild build state]) := by
  obtain ⟨began, asked, ended, state, rfl⟩ := h.frame
  refine ⟨state, ?_⟩
  have hsigns := Sign.arrivals_signs hw start
  simp only [Sign.arrivals] at hsigns ⊢
  rw [List.filterMap_cons_none rfl, List.filterMap_append, hsigns, List.filterMap_cons_none rfl,
    List.filterMap_append, hsigns]
  rfl

/-- Nothing that arrives in between is of the build. -/
theorem task?_of_arrival (h : Framed (Engine.reporter request start) registry build inner trace)
    {hook : Hook} (hm : hook ∈ Sign.arrivals inner) : ∃ run, hook.subject.task? = some run := by
  obtain ⟨sign, hs, ha⟩ := List.mem_filterMap.mp hm
  obtain ⟨run, hr, -⟩ := h.completed.signs sign hs _ (Sign.subject?_of_arrival? ha)
  exact ⟨run, hr⟩

/-- **The build is running** from its start to its finish, below everything else. -/
theorem running_eq (h : Framed (Engine.reporter request start) registry build inner trace)
    (hw : request.subscriptions.status = true) {sofar rest : List Hook}
    (hcut : Sign.arrivals trace = sofar ++ rest) (hsofar : sofar ≠ []) (hrest : rest ≠ []) :
    ∃ others, Hook.running sofar = .build build :: others := by
  obtain ⟨state, hframe⟩ := h.arrivals_frame hw
  obtain ⟨first, sofar, rfl⟩ := List.exists_cons_of_ne_nil hsofar
  obtain ⟨others, last, rfl⟩ := List.eq_nil_or_concat rest |>.resolve_left hrest
  rw [hframe, List.cons_append, List.cons.injEq, List.concat_eq_append,
    ← List.append_assoc] at hcut
  obtain ⟨rfl, hcut⟩ := hcut
  have hinner : Sign.arrivals inner = sofar ++ others := (List.append_inj' hcut rfl).1
  have hin : Subject.build build ∉ Hook.closed sofar := by
    intro hm
    obtain ⟨hook, hk, -, hsub⟩ := Hook.mem_closed.mp hm
    have harrived : hook ∈ Sign.arrivals inner := hinner ▸ List.mem_append_left _ hk
    obtain ⟨run, hr⟩ := h.task?_of_arrival harrived
    rw [hsub] at hr
    exact nomatch hr
  exact ⟨_, List.filter_cons_of_pos (decide_eq_true hin)⟩

/-- One of the starts is that of the build. -/
theorem countP_starts_build
    (h : Framed (Engine.reporter request start) registry build inner trace)
    (hw : request.subscriptions.status = true) :
    (Sign.arrivals trace).countP (Hook.starts .build) = 1 := by
  obtain ⟨state, hframe⟩ := h.arrivals_frame hw
  have hnone : (Sign.arrivals inner).countP (Hook.starts .build) = 0 := by
    refine List.countP_eq_zero.mpr fun hook hm hb => ?_
    obtain ⟨run, hr⟩ := h.task?_of_arrival hm
    simp only [Hook.starts, Bool.and_eq_true, decide_eq_true_eq] at hb
    exact kind_of_task? hr hb.2
  rw [hframe, List.countP_cons, List.countP_append, hnone]
  rfl

end Framed

/-! ## 2. What a status listener is told -/

namespace Engine

/-- What arrives before a build is planned: the change for its start. -/
theorem arrivals_opening {request : Request} (hw : request.subscriptions.status = true)
    (run : BuildRun) (requested : Bool) (start : Timestamp) :
    Sign.arrivals (opening request run requested start) = [.beforeBuild run] := by
  have hsigns := Sign.arrivals_signs hw start start (.beforeBuild run)
  simp only [Sign.arrivals] at hsigns ⊢
  rw [opening, List.filterMap_cons_none rfl, List.filterMap_append, hsigns]
  rfl

/-- **What a status listener is told of a build** whose tasks have errors that can be rendered, in
whatever order the workers take their steps and whoever listens to other things.

A change arrives for every hook: two for the build, two for every task and every test that started.
After each of them the listener is told the name of the run that was started last of those that are
not finished, in the order of arrival; in the end, nothing.  From the first change to the last the
build is running, and where it is alone the listener is told `Run build`.  Of a build that breaks
down the listener is told `Run build` and nothing else.

This is all the listener is told, if all reports of listeners that fail get through, unless some
listener closes the stream; then it is told a beginning of it. -/
theorem buildAlong_statuses (e : Engine) (request : Request) (g : Generator) (requested : Bool)
    (start : Timestamp) (choices : List Choice) (past : List Call) (place : Nat)
    (hplace : place < request.listeners.status.length)
    (hr : ∀ run, .beforeTask run ∈ (e.buildAlong choices request g requested start).hooks →
      ∀ task, e.registry.get? run.path = some task → task.action.Renderable)
    (hb : (e.buildAlong choices request g requested start).stamps.length ≤ UInt64.size) :
    let asked := request.cancellation.isSome && requested
    let result := e.buildAlong choices request g requested start
    let arrived := Sign.arrivals result.trace
    let due := arrived.inits.tail.map Hook.line
    let outcomes := (Stream.feedAll request.listeners past {} result.events).2
    let told := Stream.described place outcomes
    arrived.Perm result.hooks ∧
      (¬ e.BreaksDown request asked →
        due.length = 2 * (1 + result.hooks.countP (Hook.starts .task) +
          result.hooks.countP (Hook.starts .test)) ∧
        due.getLast? = some "" ∧
        ∀ sofar rest, arrived = sofar ++ rest → sofar ≠ [] → rest ≠ [] →
          ∃ others, Hook.running sofar = .build (runOf g) :: others ∧
            (others = [] → Hook.line sofar = "Run build")) ∧
      (e.BreaksDown request asked → due = ["Run build"]) ∧
      ((∀ o ∈ outcomes, o.broken = false) →
        told <+: due ∧ (request.listeners.NeverClose → told = due)) := by
  intro asked result arrived due outcomes told
  have hw : request.subscriptions.status = true := by
    have hne : request.listeners.status ≠ [] := List.ne_nil_of_length_pos (by omega)
    simpa [Request.subscriptions, Listeners.subscriptions] using hne
  have hdown : result.summary? = none ↔ e.BreaksDown request asked :=
    summary?_eq_none_iff e request g requested start choices
  obtain ⟨rest, horderly⟩ := buildAlong_orderly hb
  rcases framed_cases hb with ⟨summary, inner, hs, h⟩ | ⟨hs, ht⟩
  · have hup : ¬ e.BreaksDown request asked := fun hd =>
      Option.some_ne_none _ (hs.symm.trans (hdown.mpr hd))
    have hlost : ∀ sign ∈ result.trace, ∀ s, sign.subject? = some s → ¬ s.Lost e.registry := by
      rintro sign hs s hsub ⟨run, task, rfl, hg, hn⟩
      exact hn (hr run (Sign.mem_hooks.mpr (h.began hs hsub rfl)) task hg)
    have hbrackets : Bracketed arrived := h.bracketed hw hlost
    have hperm : arrived.Perm result.hooks := h.arrivals_perm hw hlost
    have hbuild : arrived.countP (Hook.starts .build) = 1 := h.countP_starts_build hw
    have hdue : Stream.linesOf (Stream.changes result.events) = due :=
      (congrArg Stream.linesOf h.changes_eq).trans hbrackets.linesOf_map
    refine ⟨hperm, fun _ => ⟨?_, ?_, fun sofar rest hcut hsofar hrest => ?_⟩,
      fun hd => absurd hd hup, fun hu => ?_⟩
    · have hlen : due.length = arrived.length := by simp [due]
      have hstarts := Hook.countP_isBefore arrived
      rw [hbuild, hperm.countP_eq (Hook.starts .task),
        hperm.countP_eq (Hook.starts .test)] at hstarts
      rw [hlen, hbrackets.length_eq, hstarts]
    · have hne : arrived ≠ [] := by
        intro hnil
        rw [hnil] at hbuild
        exact absurd hbuild Nat.zero_ne_one
      exact hbrackets.getLast?_line hne
    · obtain ⟨others, hrunning⟩ := h.running_eq hw hcut hsofar hrest
      refine ⟨others, hrunning, ?_⟩
      rintro rfl
      rw [Hook.line, hrunning]
      rfl
    · exact hdue ▸ Stream.described_feedAll horderly hplace hu
  · have hd : e.BreaksDown request asked := hdown.mp hs
    have ht : result.trace = opening request (runOf g) requested start := ht
    have harrived : arrived = [.beforeBuild (runOf g)] :=
      (congrArg Sign.arrivals ht).trans (arrivals_opening hw _ _ _)
    have hhooks : result.hooks = [.beforeBuild (runOf g)] := hooks_of_opening ht
    have hdue : due = ["Run build"] := by
      simp only [due, harrived]
      rfl
    have hlines : Stream.linesOf (Stream.changes result.events) = due := by
      rw [hdue, events_of_opening ht, Stream.changes, Hook.filterMap_change?_events, if_pos hw]
      rfl
    exact ⟨harrived ▸ hhooks ▸ .refl _, fun hup => absurd hd hup, fun _ => hdue,
      fun hu => hlines ▸ Stream.described_feedAll horderly hplace hu⟩

/-! ### A build with a listener for the status line -/

namespace Watched

/-- A request for the task, with a listener for the status line. -/
def request (reaction : Reaction) : Request where
  tasks := some [":app"]
  listeners := { status := [⟨"status", fun _ _ => reaction⟩] }

/-- The build. -/
def result (reaction : Reaction) : BuildResult :=
  Sample.engine.buildAlong Sample.choices (request reaction) ⟨1, 1⟩ false .epoch

/-- The engine does not see how the listener reacts. -/
theorem result_eq_returns (reaction : Reaction) : result reaction = result {} := rfl

theorem result_eq : result {} =
    Sample.engine.buildBy (fun su s => s.run su Sample.choices) (request {}) ⟨1, 1⟩ false
      .epoch := by
  refine buildAlong_of_isFinished ?_
  intro plan hp
  cases hp
  rfl

theorem length_stamps (reaction : Reaction) : (result reaction).stamps.length ≤ UInt64.size := by
  rw [result_eq_returns, result_eq]
  decide

theorem renderable (path : TaskPath) (task : TaskDefinition)
    (hg : Sample.engine.registry.get? path = some task) : task.action.Renderable := by
  have hm : path ∈ Sample.engine.registry.paths :=
    Registry.mem_paths_iff.mpr (Registry.contains_iff.mpr ⟨task, hg⟩)
  obtain rfl : path = ":app" := List.mem_singleton.mp hm
  exact Sample.renderable task hg

theorem passive : (request {}).listeners.Passive := by
  intro kind l hl past sight
  cases kind with
  | status => rw [List.mem_singleton.mp hl]
  | _ => exact nomatch hl

end Watched

/-- The listener is told of the build, of the task and the test inside it, and of what is left. -/
theorem statuses_sample :
    0 < (Watched.request {}).listeners.status.length ∧
      (∀ run, .beforeTask run ∈ (Watched.result {}).hooks →
        ∀ task, Sample.engine.registry.get? run.path = some task → task.action.Renderable) ∧
      (Watched.result {}).stamps.length ≤ UInt64.size ∧
      ¬ Sample.engine.BreaksDown (Watched.request {}) false ∧
      (Watched.request {}).listeners.NeverClose ∧
      Stream.described 0
          (Stream.feedAll (Watched.request {}).listeners [] {} (Watched.result {}).events).2 =
        ["Run build", "Task :app", "Test compiles", "Task :app", "Run build", ""] := by
  have hplace : 0 < (Watched.request {}).listeners.status.length := by decide
  have hr : ∀ run, .beforeTask run ∈ (Watched.result {}).hooks →
      ∀ task, Sample.engine.registry.get? run.path = some task → task.action.Renderable :=
    fun run _ => Watched.renderable run.path
  have hup : ¬ Sample.engine.BreaksDown (Watched.request {}) false :=
    fun hdown => absurd hdown.permits (by decide)
  obtain ⟨-, -, -, htold⟩ := buildAlong_statuses Sample.engine (Watched.request {}) ⟨1, 1⟩ false
    .epoch Sample.choices [] 0 hplace hr (Watched.length_stamps {})
  have hu : ∀ o ∈ (Stream.feedAll (Watched.request {}).listeners [] {} (Watched.result {}).events).2,
      o.broken = false := fun o ho => Stream.broken_feedAll Watched.passive.neverBreak ho
  have hdue : (Sign.arrivals (Watched.result {}).trace).inits.tail.map Hook.line =
      ["Run build", "Task :app", "Test compiles", "Task :app", "Run build", ""] := by
    rw [Watched.result_eq]
    rfl
  exact ⟨hplace, hr, Watched.length_stamps {}, hup, Watched.passive.neverClose,
    ((htold hu).2 Watched.passive.neverClose).trans hdue⟩

/-- **A status listener may be told less**: one that closes the stream when it is told of the start
of the build is told of nothing else. -/
theorem statuses_closing :
    ¬ ∀ (e : Engine) (request : Request) (g : Generator) (requested : Bool) (start : Timestamp)
      (choices : List Choice) (place : Nat), place < request.listeners.status.length →
      let result := e.buildAlong choices request g requested start
      (∀ run, .beforeTask run ∈ result.hooks → ∀ task, e.registry.get? run.path = some task →
        task.action.Renderable) →
      result.stamps.length ≤ UInt64.size →
      (Stream.described place (Stream.feedAll request.listeners [] {} result.events).2).length =
        2 * (1 + result.hooks.countP (Hook.starts .task) +
          result.hooks.countP (Hook.starts .test)) := by
  intro hall
  have hlength := hall Sample.engine (Watched.request { closes := true }) ⟨1, 1⟩ false .epoch
    Sample.choices 0 (by decide) (fun run _ => Watched.renderable run.path)
    (Watched.length_stamps { closes := true })
  have hone : (Stream.described 0 (Stream.feedAll (Watched.request { closes := true }).listeners []
      {} (Watched.result { closes := true }).events).2).length = 1 := by
    rw [Watched.result_eq_returns, Watched.result_eq]
    rfl
  have heven := hone.symm.trans hlength
  omega

end Engine

end BuildStream
