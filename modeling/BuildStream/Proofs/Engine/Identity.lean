/-
# The ids of runs

A process runs builds, one after the other or at the same time, and each of them takes its stamps
from a generator of its own.  So the stamps of a build are the first of its generator
(`Engine.buildAlong_stamps`), whatever other builds do meanwhile, and its runs have stamps of its
scope (`Framed.stamp_mem`).

Inside a build ids tell runs apart, and every run has one hook before it (`Framed.nodup_opened`).
Between builds the scopes do.  So no two runs of a process have one id, or one text of it, while
everything that is sent for a run has the id of that run, and what is inside a run refers to it by
this id (`ids_apart`).
-/
import BuildStream.Proofs.Engine.Ancestors
import BuildStream.Proofs.Engine.Status
import BuildStream.Proofs.Identity

namespace BuildStream

/-! ## 1. Runs and what is sent for them -/

namespace Subject

/-- What a run shows of itself. -/
def handle : Subject → Handle
  | build run => ⟨.build, run.stamp⟩
  | task run => ⟨.task, run.stamp⟩
  | test run => ⟨.test, run.stamp⟩

/-- The run around a run. -/
def parent? : Subject → Option Subject
  | build _ => none
  | task run => some (.build run.build)
  | test run => some (.task run.task)

/-- The id that is told of a run is the one that any generator computes... -/
theorem id_descriptor (s : Subject) (g : Generator) : s.descriptor.id = g.idFor s.handle := by
  cases s <;> rfl

/-- ...and so is the id of the run around it. -/
theorem parent_descriptor (s : Subject) (g : Generator) :
    s.descriptor.parent = s.parent?.map fun outer => g.idFor outer.handle := by
  cases s <;> rfl

end Subject

/-- **What is sent for a hook** has the id of its run, and tells of no other. -/
theorem Hook.id_of_mem_events {s : Subscriptions} {now : Timestamp} {hook : Hook} {e : Event}
    (he : e ∈ hook.events s now) : e.id = hook.subject.descriptor.id ∧
      ∀ p, e = .progress p → p.descriptor = hook.subject.descriptor := by
  cases e with
  | progress p =>
    have hd : p.descriptor = hook.subject.descriptor := by
      obtain ⟨time, d, _ | result⟩ := p <;>
        exact congrArg Mark.descriptor (Hook.mark_of_mem_events he rfl)
    exact ⟨congrArg Descriptor.id hd, fun _ hp => by cases hp; exact hd⟩
  | status e =>
    have hc : e.change = hook.change := Hook.change_of_mem_events he rfl
    refine ⟨?_, fun _ hp => nomatch hp⟩
    rw [Event.id, hc, Hook.change]
    split <;> rfl

namespace Framed

variable {request : Request} {start : Timestamp} {registry : Registry} {build : BuildRun}
  {inner trace : List (Sign Event)} {sign : Sign Event} {subject : Subject}

/-- A run that there is something of was opened. -/
theorem mem_opened (h : Framed (Engine.reporter request start) registry build inner trace)
    (hs : sign ∈ trace) (hsub : sign.subject? = some subject) :
    subject ∈ Hook.opened (Sign.hooks trace) := by
  obtain ⟨now, last, hf, -⟩ := h.filter_subject hs hsub
  have hm : .called subject.before ∈ trace.filter (Sign.isAbout [subject]) := by
    rw [hf]
    simp [Reporter.signs]
  exact Hook.mem_opened.mpr ⟨subject.before, Sign.mem_hooks.mpr (List.mem_filter.mp hm).1,
    subject.isBefore_before, subject.subject_before⟩

/-- The run around a run was opened. -/
theorem parent_mem_opened (h : Framed (Engine.reporter request start) registry build inner trace)
    (hs : sign ∈ trace) (hsub : sign.subject? = some subject) {outer : Subject}
    (hp : subject.parent? = some outer) : outer ∈ Hook.opened (Sign.hooks trace) := by
  cases subject with
  | build b => exact nomatch hp
  | task t =>
    obtain rfl := Option.some.inj hp
    obtain ⟨other, ho, hbuild⟩ := h.build_mem
    exact h.mem_opened ho (h.task_build hs hsub rfl ▸ hbuild)
  | test x =>
    obtain rfl := Option.some.inj hp
    exact h.mem_opened (h.began hs hsub rfl) rfl

/-- **No run is opened twice.** -/
theorem nodup_opened (h : Framed (Engine.reporter request start) registry build inner trace) :
    (Hook.opened (Sign.hooks trace)).Nodup := by
  refine List.nodup_iff_count_le_one.mpr fun s => ?_
  by_cases hm : s ∈ Hook.opened (Sign.hooks trace)
  · obtain ⟨hook, hh, -, rfl⟩ := Hook.mem_opened.mp hm
    obtain ⟨now, last, hf, hl⟩ := h.filter_subject (Sign.mem_hooks.mp hh) rfl
    rw [Hook.count_opened, Sign.hooks, Sign.about_filterMap (fun _ _ => Sign.subject?_of_called?),
      hf, List.filterMap_append, ← Sign.hooks, ← Sign.hooks, Sign.hooks_signs]
    rcases hl with ⟨after, other, rfl, -, hb⟩ | ⟨rfl, -⟩
    · simp [hb]
    · simp
  · simp [List.count_eq_zero.mpr hm]

/-- The stamp of a run is one of those that were taken. -/
theorem stamp_mem (h : Framed (Engine.reporter request start) registry build inner trace)
    (hs : sign ∈ trace) (hsub : sign.subject? = some subject) :
    subject.handle.stamp ∈ trace.filterMap Sign.stamp? := by
  obtain ⟨began, asked, ended, state, hframe⟩ := h.frame
  have hinner {other : Sign Event} (ho : other ∈ inner) : other ∈ trace := by simp [hframe, ho]
  cases subject with
  | build b =>
    have hb : .begun b ∈ trace := by simp [hframe, h.build_eq hs hsub]
    exact List.mem_filterMap.mpr ⟨_, hb, rfl⟩
  | task t =>
    have hi := h.mem_inner hs hsub rfl
    exact List.mem_filterMap.mpr ⟨_, hinner (h.completed.handed hi hsub rfl), rfl⟩
  | test x =>
    have hi := h.mem_inner hs hsub rfl
    exact List.mem_filterMap.mpr ⟨_, hinner (h.completed.stamped hi hsub), rfl⟩

end Framed

/-! ## 2. The stamps of a build -/

namespace Engine

variable {e : Engine} {request : Request} {run : BuildRun} {g : Generator} {requested : Bool}
  {start : Timestamp} {choices : List Choice}

/-- The stamps that the tasks of a build take are the first of what is left of its generator. -/
theorem progressBy_stamps {p : Progressed}
    (h : progressBy (fun su s => s.runToEnd su choices) e request run g requested start = some p)
    (hb : (p.trace.filterMap Sign.stamp?).length ≤ UInt64.size) :
    ∃ n, p.trace.filterMap Sign.stamp? = g.firstStamps n := by
  unfold progressBy at h
  split at h
  · obtain rfl := Option.some.inj h
    exact ⟨0, rfl⟩
  · split at h
    · obtain rfl := Option.some.inj h
      exact ⟨0, rfl⟩
    · next plan hp =>
      split at h
      · exact nomatch h
      · obtain rfl := Option.some.inj h
        obtain ⟨more, hrun⟩ := Schedule.runToEnd_eq_run (e.setup request run start plan) choices
          (Schedule.start (e.setup request run start plan) g requested)
        simp only [hrun] at hb ⊢
        exact ⟨_, (Schedule.traced_run hb).stamps⟩

theorem stamps_opening :
    (opening request run requested start).filterMap Sign.stamp? = [run.stamp] := by
  simp only [opening, List.filterMap_cons, List.filterMap_append, Reporter.filterMap_stamp_signs,
    Sign.stamp?]
  rfl

/-- **The stamps of a build** are the first of its generator. -/
theorem buildAlong_stamps
    (hb : (e.buildAlong choices request g requested start).stamps.length ≤ UInt64.size) :
    ∃ n, (e.buildAlong choices request g requested start).stamps = g.firstStamps n := by
  rw [buildAlong, buildBy_eq] at hb ⊢
  cases h : progressBy (fun su s => s.runToEnd su choices) e request (runOf g) g.allocate.2
      requested start with
  | none =>
    refine ⟨1, ?_⟩
    rw [Generator.firstStamps_cons]
    exact stamps_opening
  | some p =>
    have hstamps : (opening request (runOf g) requested start ++ (p.trace ++
        closing request (runOf g) start p)).filterMap Sign.stamp? =
          g.allocate.1 :: p.trace.filterMap Sign.stamp? := by
      rw [List.filterMap_append, stamps_opening, List.filterMap_append, closing,
        Reporter.filterMap_stamp_signs, List.append_nil]
      rfl
    simp only [h, Option.elim_some, BuildResult.stamps, hstamps] at hb ⊢
    rw [List.length_cons] at hb
    obtain ⟨n, hn⟩ := progressBy_stamps h (Nat.le_of_succ_le hb)
    exact ⟨n + 1, by rw [hn, Generator.firstStamps_cons]⟩

/-- What is sent before a build is planned is sent for its hook. -/
theorem hook_of_mem_opening {hook : Hook} {event : Event}
    (h : .sent hook event ∈ opening request run requested start) :
    hook = .beforeBuild run ∧ event ∈ hook.events request.subscriptions start := by
  rcases List.mem_cons.mp h with h | h
  · exact nomatch h
  · rcases List.mem_append.mp h with h | h
    · rcases List.mem_cons.mp h with h | h
      · exact nomatch h
      · obtain ⟨_, he, hs⟩ := List.mem_map.mp h
        cases hs
        exact ⟨rfl, he⟩
    · exact nomatch List.mem_singleton.mp h

/-- **The runs of a build**, whether it comes to its finish or not: every run that there is a hook
of was opened, and so was the run around it, and what is sent is sent for a hook that was called. -/
theorem opened_of_called
    (hb : (e.buildAlong choices request g requested start).stamps.length ≤ UInt64.size) :
    let result := e.buildAlong choices request g requested start
    (∀ hook ∈ result.hooks, hook.subject ∈ Hook.opened result.hooks ∧
      ∀ outer, hook.subject.parent? = some outer → outer ∈ Hook.opened result.hooks) ∧
    ∀ hook event, .sent hook event ∈ result.trace → hook ∈ result.hooks ∧
      ∃ now, event ∈ hook.events request.subscriptions now := by
  intro result
  rcases framed_cases hb with ⟨summary, inner, -, h⟩ | ⟨-, ht⟩
  · refine ⟨fun hook hh => ?_, fun hook event he => ?_⟩
    · have hs := Sign.mem_hooks.mp hh
      exact ⟨h.mem_opened hs rfl, fun outer hp => h.parent_mem_opened hs rfl hp⟩
    · exact ⟨Sign.mem_hooks.mpr (h.called_of_sent he), h.sent he⟩
  · have ht : result.trace = opening request (runOf g) requested start := ht
    rw [ht, hooks_of_opening ht]
    refine ⟨fun hook hh => ?_, fun hook event he => ?_⟩
    · obtain rfl := List.mem_singleton.mp hh
      exact ⟨List.mem_singleton_self _, fun _ hp => nomatch hp⟩
    · obtain ⟨rfl, hevent⟩ := hook_of_mem_opening he
      exact ⟨List.mem_singleton_self _, start, hevent⟩

end Engine

/-! ## 3. Builds of a process -/

/-- A build that a process is asked for. -/
structure BuildCall where
  engine : Engine
  request : Request
  /-- Whether cancellation was requested before. -/
  requested : Bool
  start : Timestamp
  /-- The order in which its workers take their steps. -/
  choices : List Choice

namespace BuildCall

/-- What comes of the build, given its generator. -/
def result (c : BuildCall) (g : Generator) : BuildResult :=
  c.engine.buildAlong c.choices c.request g c.requested c.start

variable {c : BuildCall} {g : Generator}

/-- The runs of a build have stamps of its scope... -/
theorem scope_of_mem_opened (hb : (c.result g).stamps.length ≤ UInt64.size) {s : Subject}
    (hm : s ∈ Hook.opened (c.result g).hooks) : s.handle.stamp.scope = g.scope := by
  obtain ⟨hook, hh, -, rfl⟩ := Hook.mem_opened.mp hm
  rcases Engine.framed_cases hb with ⟨summary, inner, -, h⟩ | ⟨-, ht⟩
  · have hstamp : hook.subject.handle.stamp ∈ (c.result g).stamps :=
      h.stamp_mem (Sign.mem_hooks.mp hh) rfl
    obtain ⟨n, hn⟩ := Engine.buildAlong_stamps hb
    rw [result, hn] at hstamp
    obtain ⟨k, -, hk⟩ := List.mem_map.mp hstamp
    rw [← hk]
    rfl
  · rw [result, Engine.hooks_of_opening ht] at hh
    obtain rfl := List.mem_singleton.mp hh
    rfl

/-- ...and ids of their own. -/
theorem nodup_ids (hb : (c.result g).stamps.length ≤ UInt64.size) (any : Generator) :
    ((Hook.opened (c.result g).hooks).map fun s => any.idFor s.handle).Nodup := by
  rcases Engine.framed_cases hb with ⟨summary, inner, -, h⟩ | ⟨-, ht⟩
  · refine h.nodup_opened.map_on fun s hs t ht he => ?_
    obtain ⟨hook, hh, -, rfl⟩ := Hook.mem_opened.mp hs
    obtain ⟨other, ho, -, rfl⟩ := Hook.mem_opened.mp ht
    rw [← Subject.id_descriptor, ← Subject.id_descriptor] at he
    exact h.subject_inj (Sign.mem_hooks.mp hh) (Sign.mem_hooks.mp ho) rfl rfl he
  · rw [result, Engine.hooks_of_opening ht]
    exact List.nodup_singleton _

end BuildCall

namespace Scopes

/-- What comes of the builds of a process, each with a generator of a fresh scope. -/
def results (s : Scopes) : List BuildCall → List BuildResult
  | [] => []
  | c :: builds => c.result s.generator.1 :: s.generator.2.results builds

/-- The runs that were opened in some builds. -/
def opened (results : List BuildResult) : List Subject :=
  results.flatMap fun result => Hook.opened result.hooks

variable {s : Scopes} {builds : List BuildCall}

theorem exists_of_mem_results {result : BuildResult} (h : result ∈ s.results builds) :
    ∃ c ∈ builds, ∃ g, result = c.result g := by
  induction builds generalizing s with
  | nil => exact nomatch h
  | cons c builds ih =>
    rcases List.mem_cons.mp h with rfl | h
    · exact ⟨c, List.mem_cons_self, _, rfl⟩
    · obtain ⟨j, hj, hg⟩ := ih h
      exact ⟨j, List.mem_cons_of_mem _ hj, hg⟩

/-- The scopes of runs are those that were handed out to their builds. -/
theorem scope_of_mem_opened
    (hb : ∀ result ∈ s.results builds, result.stamps.length ≤ UInt64.size) {run : Subject}
    (hm : run ∈ opened (s.results builds)) :
    ∃ k < builds.length, run.handle.stamp.scope = s.next + UInt64.ofNat k := by
  induction builds generalizing s with
  | nil => exact nomatch hm
  | cons c builds ih =>
    rw [opened, results, List.flatMap_cons] at hm
    rcases List.mem_append.mp hm with hm | hm
    · refine ⟨0, Nat.succ_pos _, ?_⟩
      rw [BuildCall.scope_of_mem_opened (hb _ List.mem_cons_self) hm]
      simp [generator]
    · obtain ⟨k, hk, hscope⟩ := ih (fun r hr => hb r (List.mem_cons_of_mem _ hr)) hm
      exact ⟨k + 1, Nat.succ_lt_succ hk, hscope.trans (Generator.counter_succ' _ k).symm⟩

/-- **No two runs of a process have one id.** -/
theorem nodup_ids (hlen : builds.length ≤ UInt64.size)
    (hb : ∀ result ∈ s.results builds, result.stamps.length ≤ UInt64.size) (any : Generator) :
    ((opened (s.results builds)).map fun run => any.idFor run.handle).Nodup := by
  induction builds generalizing s with
  | nil => exact List.nodup_nil
  | cons c builds ih =>
    have hb' := fun r hr => hb r (List.mem_cons_of_mem _ hr)
    have hfirst : (c.result s.generator.1).stamps.length ≤ UInt64.size := hb _ List.mem_cons_self
    rw [List.length_cons] at hlen
    rw [opened, results, List.flatMap_cons, List.map_append, List.nodup_append]
    refine ⟨BuildCall.nodup_ids hfirst any, ih (by omega) hb', ?_⟩
    intro id hid other hother he
    obtain ⟨run, hrun, rfl⟩ := List.mem_map.mp hid
    obtain ⟨later, hlater, rfl⟩ := List.mem_map.mp hother
    -- the scope of the first build is none of the later ones
    obtain ⟨k, hk, hscope⟩ := scope_of_mem_opened hb' hlater
    have hsame := congrArg Stamp.scope (Generator.idFor_inj.mp he).2
    rw [BuildCall.scope_of_mem_opened hfirst hrun, hscope] at hsame
    have hcounts : s.next + UInt64.ofNat 0 = s.next + UInt64.ofNat (k + 1) := by
      rw [Generator.counter_succ']
      simpa [generator] using hsame
    exact absurd (Generator.counter_inj (by decide) (by omega) hcounts) (by omega)

end Scopes

/-- **Ids tell runs apart**, and what belongs to a run is found by its id.

Whatever generators a process creates and whatever stamps it takes from them, in whatever order, no
stamp comes twice.  Ids are the same exactly for handles with the same kind and the same stamp,
whichever generators compute them, and texts are the same exactly for the same ids.

So no two runs of builds, tasks and tests in one process have one id or one text.  Of every run
there is its opening hook; everything that is sent for a run has its id, and what is inside a run
refers to it by this id.

The counters have 64 bits, and none of them comes back to where it began. -/
theorem ids_apart :
    (∀ calls : List Counters.Call, calls.count .create ≤ UInt64.size →
      (calls.countP fun k => decide (k ≠ .create)) ≤ UInt64.size →
      (Counters.stamps {} calls).Nodup) ∧
    (∀ (g g' : Generator) (run run' : Handle),
      g.idFor run = g'.idFor run' ↔ run.kind = run'.kind ∧ run.stamp = run'.stamp) ∧
    (∀ id id' : OperationId, id.text = id'.text ↔ id = id') ∧
    ∀ builds : List BuildCall, builds.length ≤ UInt64.size →
      let results := Scopes.results {} builds
      (∀ result ∈ results, result.stamps.length ≤ UInt64.size) → ∀ g : Generator,
        let id (run : Subject) := g.idFor run.handle
        ((Scopes.opened results).map id).Nodup ∧
        ((Scopes.opened results).map fun run => (id run).text).Nodup ∧
        ∀ result ∈ results,
          (∀ hook ∈ result.hooks, hook.subject ∈ Hook.opened result.hooks ∧
            ∀ outer, hook.subject.parent? = some outer → outer ∈ Hook.opened result.hooks) ∧
          ∀ hook e, .sent hook e ∈ result.trace →
            hook ∈ result.hooks ∧ e.id = id hook.subject ∧
              ∀ p, e = .progress p → p.descriptor.id = id hook.subject ∧
                p.descriptor.parent = hook.subject.parent?.map id := by
  refine ⟨fun calls => Counters.nodup_stamps, fun g g' run run' => Generator.idFor_inj,
    fun id id' => OperationId.text_inj, ?_⟩
  intro builds hlen results hb g id
  have hids : ((Scopes.opened results).map id).Nodup := Scopes.nodup_ids hlen hb g
  refine ⟨hids, ?_, fun result hr => ?_⟩
  · have htexts := hids.map (f := OperationId.text) fun _ _ => OperationId.text_inj.mp
    rwa [List.map_map] at htexts
  · obtain ⟨c, -, generator, rfl⟩ := Scopes.exists_of_mem_results hr
    obtain ⟨hopened, hsent⟩ := Engine.opened_of_called (hb _ hr)
    refine ⟨hopened, fun hook e he => ?_⟩
    obtain ⟨hcalled, now, hevent⟩ := hsent hook e he
    obtain ⟨hid, hd⟩ := Hook.id_of_mem_events hevent
    refine ⟨hcalled, ?_, fun p hp => ?_⟩
    · rw [hid, Subject.id_descriptor _ g]
    · rw [hd p hp]
      exact ⟨Subject.id_descriptor _ g, Subject.parent_descriptor _ g⟩

/-! ### The same build twice -/

namespace Twice

/-- Two generators are created, and both hand out stamps in between. -/
def calls : List Counters.Call := [.create, .allocate 0, .create, .allocate 1, .allocate 0]

/-- The build of one task with one test. -/
def build : BuildCall :=
  ⟨Engine.Sample.engine, Engine.Sample.request, false, .epoch, Engine.Sample.choices⟩

/-- What comes of it if it is asked for twice. -/
def results : List BuildResult := Scopes.results {} [build, build]

/-- The build with a generator, as far as the choices lead. -/
def result (g : Generator) : BuildResult :=
  Engine.Sample.engine.buildBy (fun su s => s.run su Engine.Sample.choices) Engine.Sample.request g
    false .epoch

theorem results_eq : results = [result ⟨1, 1⟩, result ⟨2, 1⟩] := by
  have hone : build.result ⟨1, 1⟩ = result ⟨1, 1⟩ := by
    refine Engine.buildAlong_of_isFinished fun plan hp => ?_
    cases hp
    rfl
  have htwo : build.result ⟨2, 1⟩ = result ⟨2, 1⟩ := by
    refine Engine.buildAlong_of_isFinished fun plan hp => ?_
    cases hp
    rfl
  rw [← hone, ← htwo]
  rfl

theorem length_stamps : ∀ result ∈ results, result.stamps.length ≤ UInt64.size := by
  intro r hr
  rw [results_eq] at hr
  rcases List.mem_pair.mp hr with rfl | rfl <;> decide

/-- The runs of one of the two. -/
def runs (scope : UInt64) : List Subject :=
  let build : BuildRun := ⟨⟨scope, 1⟩⟩
  let task : TaskRun := ⟨⟨scope, 2⟩, ":app", none, build⟩
  [.build build, .task task, .test ⟨⟨scope, 3⟩, "compiles", none, task⟩]

theorem opened_eq : Scopes.opened results = runs 1 ++ runs 2 := by
  rw [results_eq]
  rfl

end Twice

/-- No stamp comes twice, and no run of the one build has the id of a run of the other. -/
theorem ids_twice :
    Twice.calls.count .create ≤ UInt64.size ∧
      (Twice.calls.countP fun k => decide (k ≠ .create)) ≤ UInt64.size ∧
      Counters.stamps {} Twice.calls = [⟨1, 1⟩, ⟨2, 1⟩, ⟨1, 2⟩] ∧
      (Counters.stamps {} Twice.calls).Nodup ∧
      (∀ result ∈ Twice.results, result.stamps.length ≤ UInt64.size) ∧
      ((Twice.runs 1 ++ Twice.runs 2).map fun run => run.descriptor.id.text).Nodup := by
  obtain ⟨hstamps, -, -, hbuilds⟩ := ids_apart
  have hc : Twice.calls.count .create ≤ UInt64.size := by decide
  have hs : (Twice.calls.countP fun k => decide (k ≠ .create)) ≤ UInt64.size := by decide
  obtain ⟨-, htexts, -⟩ :=
    hbuilds [Twice.build, Twice.build] (by decide) Twice.length_stamps ⟨1, 1⟩
  refine ⟨hc, hs, rfl, hstamps _ hc hs, Twice.length_stamps, ?_⟩
  rw [← Twice.opened_eq]
  simp only [Subject.id_descriptor _ ⟨1, 1⟩]
  exact htexts

end BuildStream
