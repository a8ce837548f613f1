/-
# Builds of configured tasks

A configured task that is handed over and is not told of a cancellation runs all of its tests, in
their order and one after the other, between the two hooks of its own.  How many of them failed
decides how it ends: with an error that counts them, or, if none did, with what it is configured to
report (`buildAlong_configured`).

What its client is sent are the transitions that these hooks tell of, as far as they are wanted.
They are found among all events as those of the run and of the runs that name it as their parent
(`Framed.filter_family`).
-/
import BuildStream.Proofs.Configured
import BuildStream.Proofs.Engine.Agreement

namespace BuildStream

/-! ## 1. Endings -/

/-- A test was run in a task, and it ended as it is configured to: it failed with a message exactly
if the message was configured. -/
structure TestConfig.Ran (task : TaskRun) (t : TestConfig) (x : TestRun × RunState) : Prop where
  name : x.1.name = t.name
  className : x.1.className = t.className
  task : x.1.task = task
  failed : ∀ message, x.2.ending? = some (.failed [.ofMessage message]) ↔ t.fail = some message
  passed : t.fail = none → x.2.ending? = some (.success false)

/-- What a client is told of a configured outcome. -/
inductive TaskOutcome.Told (path : TaskPath) : TaskOutcome → Ending → Prop
  | executed : Told path .executed (.success false)
  | upToDate : Told path .upToDate (.success true)
  | skipped (reason : String) : Told path (.skipped reason) (.skipped reason)
  | fail (message : String) (f : Failure) :
      f.messages = [failedTaskMessage path, message] → Told path (.fail message) (.failed [f])

/-- A configured test ends as it is configured to. -/
theorem TestConfig.ran_runIn (t : TestConfig) (task : TaskRun) (stamp : Stamp)
    (began ended : Timestamp) :
    Ran task t (t.runIn task stamp, .ofResult began ended t.result) := by
  refine ⟨rfl, rfl, rfl, fun message => ?_, fun hfail => ?_⟩
  · unfold result
    cases t.fail with
    | none => exact iff_of_false nofun nofun
    | some configured =>
      have hended : (RunState.ofResult began ended (.error configured)).ending? =
          some (.failed [.ofMessage configured]) := rfl
      simp [hended, Failure.ofMessage]
  · rw [result, hfail]
    rfl

/-- The error of a configured task is told with its two messages. -/
theorem ending?_failedTask (path : TaskPath) (cause : String) (began ended : Timestamp) :
    ∃ f, (RunState.ofResult began ended (failedTask path cause)).ending? = some (.failed [f]) ∧
      f.messages = [failedTaskMessage path, cause] :=
  ⟨_, rfl, Failure.messages_ofError _⟩

/-- **How a configured task ends**: if some of its tests failed, with an error that counts them,
and otherwise as it is configured to. -/
theorem TaskConfig.ending?_result (t : TaskConfig) (failed : Nat) (began ended : Timestamp) :
    ∃ ending, (RunState.ofResult began ended (t.result failed)).ending? = some ending ∧
      if 0 < failed then
        ∃ f, ending = .failed [f] ∧
          f.messages = [failedTaskMessage t.path, failedTestsMessage failed t.tests.length]
      else t.outcome.Told t.path ending := by
  unfold result
  split
  · obtain ⟨f, hending, hmessages⟩ := ending?_failedTask t.path
      (failedTestsMessage failed t.tests.length) began ended
    exact ⟨_, hending, f, rfl, hmessages⟩
  · cases t.outcome with
    | executed => exact ⟨_, rfl, .executed⟩
    | upToDate => exact ⟨_, rfl, .upToDate⟩
    | skipped reason => exact ⟨_, rfl, .skipped reason⟩
    | fail message =>
      obtain ⟨f, hending, hmessages⟩ := ending?_failedTask t.path message began ended
      exact ⟨_, hending, .fail message f hmessages⟩

/-! ## 2. What is sent for a run and its tests -/

/-- The transitions that are sent. -/
def Sign.transitions (signs : List (Sign Event)) : List (Descriptor × Progress) :=
  (signs.filterMap Sign.sent?).filterMap Event.transition?

theorem Sign.transitions_append (signs more : List (Sign Event)) :
    transitions (signs ++ more) = transitions signs ++ transitions more := by
  simp only [transitions, List.filterMap_append]

theorem Sign.transitions_stamped (run : TaskRun) (stamp : Stamp) (signs : List (Sign Event)) :
    transitions (.stamped run stamp :: signs) = transitions signs := rfl

/-- The transitions that hooks tell of, as far as they are wanted. -/
def Hook.wanted (s : Subscriptions) (hooks : List Hook) : List (Descriptor × Progress) :=
  (hooks.filterMap transition?).filter fun t => s.wants t.1.kind

theorem Hook.wanted_append (s : Subscriptions) (hooks more : List Hook) :
    wanted s (hooks ++ more) = wanted s hooks ++ wanted s more := by
  simp only [wanted, List.filterMap_append, List.filter_append]

/-- **What is sent for a hook** whose transition can be determined is what is wanted of it. -/
theorem Sign.transitions_signs {request : Request} {start now : Timestamp} {hook : Hook}
    {t : Descriptor × Progress} (ht : hook.transition? = some t) :
    transitions ((Engine.reporter request start).signs now hook) =
      Hook.wanted request.subscriptions [hook] := by
  rw [transitions, Engine.filterMap_sent?_signs, Hook.filterMap_transition?_events _ _ ht,
    Hook.wanted, List.filterMap_cons_some ht, List.filterMap_nil, List.filter_singleton,
    Bool.cond_eq_ite]

section Family

variable {request : Request} {start : Timestamp} {registry : Registry} {build : BuildRun}
  {inner trace : List (Sign Event)} {run : TaskRun}

/-- **A run of a task and the runs of its tests** are those that have its id or name it as their
parent. -/
theorem Framed.family_iff (h : Framed (Engine.reporter request start) registry build inner trace)
    (hrun : .called (.beforeTask run) ∈ trace) {sign : Sign Event} (hs : sign ∈ trace)
    {subject : Subject} (hsub : sign.subject? = some subject) :
    (subject.descriptor.id = run.id ∨ subject.descriptor.parent = some run.id) ↔
      subject.task? = some run := by
  cases subject with
  | build b => exact iff_of_false (Or.rec (fun hid => nomatch hid) fun hp => nomatch hp) nofun
  | task t =>
    constructor
    · rintro (hid | hparent)
      · exact congrArg Subject.task? (h.subject_inj hs hrun hsub rfl hid)
      · exact nomatch Option.some.inj hparent
    · exact fun ht => .inl (congrArg TaskRun.id (Option.some.inj ht))
  | test x =>
    constructor
    · rintro (hid | hparent)
      · exact nomatch hid
      · have hbegan : .called (.beforeTask x.task) ∈ trace := h.began hs hsub rfl
        exact congrArg Subject.task? (h.subject_inj hbegan hrun rfl rfl (Option.some.inj hparent))
    · exact fun ht => .inr (congrArg (fun other : TaskRun => some other.id) (Option.some.inj ht))

/-- **What is sent for a run and its tests** is found among all events by the id of the run. -/
theorem Framed.filter_family
    (h : Framed (Engine.reporter request start) registry build inner trace)
    (hrun : .called (.beforeTask run) ∈ trace) :
    ((Sign.transitions trace).filter fun t =>
      decide (t.1.id = run.id ∨ t.1.parent = some run.id)) =
      Sign.transitions (trace.filter fun sign => decide (sign.worker? = some run)) := by
  rw [Sign.transitions, Sign.transitions, List.filterMap_filterMap, List.filterMap_filterMap,
    List.filter_filterMap, List.filterMap_filter]
  refine List.filterMap_congr fun sign hs => ?_
  cases sign with
  | sent hook e =>
    obtain ⟨now, he⟩ := h.sent hs
    cases e with
    | status e => simp [Sign.sent?, Event.transition?]
    | progress p =>
      have hd := (Hook.id_of_mem_events he).2 p rfl
      have hfamily : decide (p.descriptor.id = run.id ∨ p.descriptor.parent = some run.id) =
          decide (hook.subject.task? = some run) :=
        decide_eq_decide.mpr (hd ▸ h.family_iff hrun hs rfl)
      simp only [Sign.sent?, Event.transition?, Sign.worker?, Option.bind_some, Option.filter_some,
        hfamily]
      rfl
  | _ => simp [Sign.sent?]

end Family

/-! ## 3. Builds -/

section Tested

variable {request : Request} {start : Timestamp} {run : TaskRun} {tests : List TestConfig}
  {ran : List (TestRun × RunState)} {signs : List (Sign Event)}

/-- The hooks of tests that were run one after the other. -/
def Hook.ofTests (ran : List (TestRun × RunState)) : List Hook :=
  ran.flatMap fun x => [.beforeTest x.1, .afterTest x.1 x.2]

/-- **Configured tests that were run**: what they are, which hooks were called, and what was
sent. -/
theorem Script.Tested.shown (h : Tested (Engine.reporter request start) run tests ran signs) :
    List.Forall₂ (TestConfig.Ran run) tests ran ∧ Sign.hooks signs = Hook.ofTests ran ∧
      Sign.transitions signs = Hook.wanted request.subscriptions (Hook.ofTests ran) := by
  induction h with
  | nil => exact ⟨.nil, rfl, rfl⟩
  | cons t stamp before after began ended h ih =>
    obtain ⟨hran, hhooks, hsent⟩ := ih
    obtain ⟨r, hr, -⟩ := RunState.exists_result? t.result_ne began ended
    refine ⟨.cons (t.ran_runIn run stamp began ended) hran, ?_, ?_⟩
    · rw [Sign.hooks_stamped, Sign.hooks_append, Sign.hooks_signs, Sign.hooks_append,
        Sign.hooks_signs, hhooks]
      rfl
    · rw [Sign.transitions_stamped, Sign.transitions_append, Sign.transitions_signs rfl,
        Sign.transitions_append,
        Sign.transitions_signs (Hook.transition?_of_result (.afterTest _ _) rfl hr), hsent,
        ← Hook.wanted_append, ← Hook.wanted_append]
      rfl

/-- For questions no hook is called and nothing is sent. -/
theorem Sign.hooks_asks {asks : List (Sign Event)}
    (h : ∀ sign ∈ asks, sign = .asked (some run) false) :
    hooks asks = [] ∧ transitions asks = [] := by
  have hsent : asks.filterMap Sign.sent? = [] :=
    List.filterMap_eq_nil_iff.mpr fun sign hs => by rw [h sign hs]; rfl
  refine ⟨List.filterMap_eq_nil_iff.mpr fun sign hs => by rw [h sign hs]; rfl, ?_⟩
  rw [transitions, hsent]
  rfl

end Tested

namespace Engine

/-- **What a configured task does.**

Whatever else a build runs and in whatever order the workers take their steps: a configured task
that was handed over, and whose questions about cancellation were not answered with yes, runs all of
its tests.  The hooks of the run are the one before the task, two for each of its tests in the
order of the configuration, and the one after the task.  Each test is a run of its own inside the
task, which fails with the configured message exactly if there is one.

If some tests failed, the task ends with an error that says how many of how many; and otherwise as
it is configured to.  The one report for its path agrees with that.  The client is sent the
transitions that these hooks tell of, as far as it wants them: these are all under the id of the run
or of a run inside it, as long as no stamp comes twice. -/
theorem buildAlong_configured (e : Engine) (request : Request) (g : Generator) (requested : Bool)
    (start : Timestamp) (choices : List Choice) :
    let result := e.buildAlong choices request g requested start
    ∀ (run : TaskRun) (t : TaskConfig), .handed run ∈ result.trace →
      e.registry.get? run.path = some t.definition →
      .asked (some run) true ∉ result.trace →
      ∃ (ran : List (TestRun × RunState)) (state : RunState) (r : OperationResult)
        (summary : Summary) (report : TaskReport),
        let hooks := .beforeTask run ::
          (ran.flatMap (fun x => [.beforeTest x.1, .afterTest x.1 x.2]) ++ [.afterTask run state])
        (result.hooks.filter fun hook => decide (hook.subject.task? = some run)) = hooks ∧
        List.Forall₂ (TestConfig.Ran run) t.tests ran ∧
        state.result? = some r ∧
        (if 0 < t.failing then
          ∃ f, r.ending = .failed [f] ∧ f.messages =
            [failedTaskMessage run.path, failedTestsMessage t.failing t.tests.length]
        else t.outcome.Told run.path r.ending) ∧
        result.summary? = some summary ∧
        (summary.tasks.filter fun other => other.path == run.path) = [report] ∧
        report.verdict.Agrees r.ending ∧
        (result.stamps.length ≤ UInt64.size →
          ((result.events.filterMap Event.transition?).filter fun t =>
            decide (t.1.id = run.id ∨ t.1.parent = some run.id)) =
              Hook.wanted request.subscriptions hooks) := by
  intro result run t hr hg hquiet
  -- the own signs of the run are a way through the script of the configured task
  obtain ⟨su, s, report, summary, ht, hregistry, -, hreporter, -, hsame, hsummary, hreport⟩ :=
    buildAlong_tracks hr
  obtain ⟨task, htask, -, hpath⟩ := ht.task
  obtain rfl : t.definition = task := Option.some.inj (hg.symm.trans (hregistry ▸ htask))
  obtain ⟨hrun, hverdict, before, asks, ran, shown, after, began, ended, hs, hasks, htested⟩ :=
    Script.path_configured hpath fun ha => hquiet (List.mem_of_mem_filter (hsame ▸ ha))
  rw [hreporter] at hs htested
  obtain ⟨hran, hhooks, hsent⟩ := htested.shown
  obtain ⟨hnohooks, hnothing⟩ := Sign.hooks_asks hasks
  obtain ⟨r, hresult, hagrees⟩ :=
    RunState.exists_agreed_result? (t.result_ne t.failing) run.path (su.lost run.path) began ended
  obtain ⟨ending, hending, htold⟩ := t.ending?_result t.failing began ended
  obtain rfl : ending = r.ending := by
    rw [RunState.result?, hending] at hresult
    exact congrArg OperationResult.ending (Option.some.inj hresult)
  have hp : t.path = run.path := Registry.path_of_get? hg
  rw [hp] at htold
  refine ⟨ran, .ofResult began ended (t.result t.failing), r, summary, report, ?_, hran, hresult,
    htold, hsummary, hrun ▸ hreport, hverdict ▸ hagrees, fun hb => ?_⟩
  · refine (Sign.filter_hooks result.trace run).trans ?_
    rw [hsame, hs, Sign.hooks_append, Sign.hooks_signs, Sign.hooks_append, hnohooks,
      Sign.hooks_append, hhooks, Sign.hooks_signs]
    rfl
  · obtain ⟨inner, h⟩ := framed_of_handed hb hr
    have hbefore : .called (.beforeTask run) ∈ s.own run :=
      hs ▸ List.mem_append_left _ List.mem_cons_self
    refine (h.filter_family (List.mem_of_mem_filter (hsame ▸ hbefore))).trans ?_
    rw [hsame, hs, Sign.transitions_append, Sign.transitions_signs rfl, Sign.transitions_append,
      hnothing, Sign.transitions_append, hsent,
      Sign.transitions_signs (Hook.transition?_of_result (.afterTask _ _) rfl hresult),
      List.nil_append,
      ← Hook.wanted_append, ← Hook.wanted_append]
    rfl

/-! ### Two failing tests around one that passes -/

namespace Checked

/-- The task. -/
def task : TaskConfig where
  path := ":check"
  outcome := .upToDate
  durationMs := 10
  tests := [{ name := "first", fail := some "broken" }, { name := "second" },
    { name := "third", fail := some "broken too" }]

/-- An engine with the task. -/
def engine : Engine where
  registry := .ofTasks [task.definition] []
  options := { concurrency := 1 }
  lost := fun _ => "task 1 panicked"

/-- A request for the task. -/
def request : Request where
  tasks := some [":check"]

/-- The scheduler hands the task over, its worker runs it, and the wave ends. -/
def choices : List Choice :=
  [.scheduler, .scheduler] ++ List.replicate 32 (.worker 0) ++ [.scheduler]

/-- The build. -/
def result : BuildResult := engine.buildAlong choices request ⟨1, 1⟩ false .epoch

/-- The run of the task. -/
def run : TaskRun := ⟨⟨1, 2⟩, ":check", none, ⟨⟨1, 1⟩⟩⟩

theorem result_eq :
    result = engine.buildBy (fun su s => s.run su choices) request ⟨1, 1⟩ false .epoch := by
  refine buildAlong_of_isFinished ?_
  intro plan hp
  cases hp
  rfl

/-- No question is answered with yes. -/
theorem notMem_asked : .asked (some run) true ∉ result.trace := by
  intro ha
  have hm : true ∈ Sign.answers result.trace := List.mem_filterMap.mpr ⟨_, ha, rfl⟩
  rw [result_eq] at hm
  revert hm
  decide

end Checked

/-- All three tests are run, and the task fails because of two of them. -/
theorem configured_checked :
    .handed Checked.run ∈ Checked.result.trace ∧
      Checked.engine.registry.get? ":check" = some Checked.task.definition ∧
      .asked (some Checked.run) true ∉ Checked.result.trace ∧
      ∃ ran : List (TestRun × RunState), ran.map (·.1.name) = ["first", "second", "third"] ∧
        ∃ summary report f, Checked.result.summary? = some summary ∧
          (summary.tasks.filter fun other => other.path == ":check") = [report] ∧
          f.messages = ["Execution failed for task :check", "2 of 3 tests failed"] ∧
          report.verdict.Agrees (.failed [f]) := by
  have hr : .handed Checked.run ∈ Checked.result.trace := by
    rw [Checked.result_eq, ← Sign.mem_handed]
    exact List.mem_singleton_self _
  have hg : Checked.engine.registry.get? ":check" = some Checked.task.definition := rfl
  obtain ⟨ran, state, r, summary, report, -, hran, -, hsays, hs, hreport, hagrees, -⟩ :=
    buildAlong_configured Checked.engine Checked.request ⟨1, 1⟩ false .epoch Checked.choices
      Checked.run Checked.task hr hg Checked.notMem_asked
  have hfailing : 0 < Checked.task.failing := by decide
  rw [if_pos hfailing] at hsays
  obtain ⟨f, hending, hmessages⟩ := hsays
  have htask : failedTaskMessage Checked.run.path = "Execution failed for task :check" := by decide
  have htests : failedTestsMessage Checked.task.failing Checked.task.tests.length =
      "2 of 3 tests failed" := by decide
  have hnames : ran.map (·.1.name) = ["first", "second", "third"] := by
    obtain _ | ⟨hfirst, _ | ⟨hsecond, _ | ⟨hthird, _ | _⟩⟩⟩ := hran
    simp only [List.map_cons, List.map_nil, hfirst.name, hsecond.name, hthird.name]
  refine ⟨hr, hg, Checked.notMem_asked, ran, hnames, summary, report, f, hs, hreport, ?_,
    hending ▸ hagrees⟩
  rw [hmessages, htask, htests]

end Engine

end BuildStream
