/-
# How a run ends

What a command line says about output decides which listeners a request has and how its build is
told.  It decides nothing else: the request asks for the same tasks (`request_cases`), and what a
build concludes depends on these alone, as long as nobody cancels it.  So a run has one ending
(`RunArguments.ending`), made of the arguments, the configuration and the files, and every run
without a deadline comes to it, whatever it shows (`ending_runAlong`).

One way to end is none of those that a build reports.  A build that asks for more permits than
there can be does not get to its finish, and the program ends with it.
-/
import BuildStream.Command
import BuildStream.Proofs.Engine.Conclusion

namespace BuildStream

/-! ## 1. Requests -/

namespace Request

theorem setAll_append (fs : Files) (r : Request) (settings more : List Setting) :
    setAll fs r (settings ++ more) = (setAll fs r settings).bind fun r => setAll fs r more := by
  induction settings generalizing r with
  | nil => rfl
  | cons setting settings ih =>
    rw [List.cons_append, setAll, setAll]
    cases r.set fs setting with
    | ok r => exact ih r
    | error e => rfl

/-- Listeners are never refused, and change nothing else. -/
theorem setAll_listeners (fs : Files) (r : Request) {settings : List Setting}
    (h : ∀ setting ∈ settings, ∃ kind l, setting = .listener kind l) :
    ∃ listeners, setAll fs r settings = .ok { r with listeners } := by
  induction settings generalizing r with
  | nil => exact ⟨r.listeners, rfl⟩
  | cons setting settings ih =>
    obtain ⟨kind, l, rfl⟩ := h _ List.mem_cons_self
    exact ih _ fun setting hs => h setting (List.mem_cons_of_mem _ hs)

/-- A Java home is kept if it is a directory. -/
theorem setJavaHome_cases (fs : Files) (home : Option String) :
    (∃ path, home = some path ∧ fs.isDirectory path = false) ∧
      (∃ error, ∀ r, setJavaHome fs r home = .error error) ∨
    (¬ ∃ path, home = some path ∧ fs.isDirectory path = false) ∧
      ∀ r, setJavaHome fs r home = .ok { r with javaHome := home } := by
  unfold setJavaHome
  cases home with
  | none => exact .inr ⟨by simp, fun _ => rfl⟩
  | some path =>
    cases hd : fs.isDirectory path with
    | false => exact .inl ⟨⟨path, rfl, hd⟩, .invalidJavaHome path, fun _ => by simp [hd]⟩
    | true => exact .inr ⟨by simp [hd], fun _ => by simp [hd]⟩

end Request

/-- The number with which a command ends the program. -/
def exitNumber : Except CommandError CommandResult → Nat
  | .ok result => result.code.number
  | .error error => error.exitCode.number

namespace RunArguments

variable {s : Surroundings} {fs : Files} {inv : Invocation} {a : RunArguments} {config : Config}
  {choices : List Choice}

theorem listenerSettings_listener (a : RunArguments) (inv : Invocation) :
    ∀ setting ∈ a.listenerSettings inv, ∃ kind l, setting = .listener kind l := by
  intro setting h
  rcases List.mem_append.mp h with h | h
  · split at h
    · obtain ⟨kind, -, rfl⟩ := List.mem_map.mp h
      exact ⟨_, _, rfl⟩
    · exact nomatch h
  · split at h
    · exact ⟨_, _, List.mem_singleton.mp h⟩
    · exact nomatch h

/-- Why the request for a run is refused: its Java home is no directory, or a task path is blank. -/
def Refused (fs : Files) (a : RunArguments) (config : Config) : Prop :=
  (∃ home, a.javaHome.or config.build.javaHome = some home ∧ fs.isDirectory home = false) ∨
    ∃ path ∈ a.tasks, isBlank path = true

/-- What a run asks its engine for. -/
def asked (a : RunArguments) : Request := { tasks := nonEmpty (distinct a.tasks) }

/-- **The request for a run** is refused, or it asks for the tasks of the command line. -/
theorem request_cases (s : Surroundings) (fs : Files) (inv : Invocation) (a : RunArguments)
    (config : Config) :
    a.Refused fs config ∧ (∃ error, a.request s fs inv config = .error error) ∨
    ¬ a.Refused fs config ∧ ∃ request, a.request s fs inv config = .ok request ∧
      request.tasks = a.asked.tasks ∧ request.launchables = [] := by
  have hlisteners (r : Request) :=
    Request.setAll_listeners fs r (a.listenerSettings_listener inv)
  have hhome : a.javaHome.or (a.override config).build.javaHome =
    a.javaHome.or config.build.javaHome := rfl
  unfold request settings Refused
  rw [Request.setAll_append, ← List.any_eq_true]
  simp only [Request.setAll, Request.set, Request.setTasks, hhome]
  rcases Request.setJavaHome_cases fs (a.javaHome.or config.build.javaHome) with
    ⟨hd, error, hset⟩ | ⟨hd, hset⟩ <;> simp only [hset]
  · exact .inl ⟨.inl hd, error, rfl⟩
  · cases hb : a.tasks.any isBlank with
    | true => exact .inl ⟨.inr rfl, _, rfl⟩
    | false =>
      obtain ⟨listeners, hl⟩ := hlisteners _
      exact .inr ⟨not_or.mpr ⟨hd, Bool.false_ne_true⟩, _, hl, rfl, rfl⟩

/-! ## 2. Endings -/

/-- The summary of the build of a run, if there was a build and it came to its finish. -/
def summaryAlong (choices : List Choice) (s : Surroundings) (fs : Files) (inv : Invocation)
    (a : RunArguments) (config : Config) : Option Summary :=
  match a.request s fs inv config with
  | .error _ => none
  | .ok request => (a.builtBy (Engine.buildAlong choices) s config request).summary?

open Classical in
/-- **The ending of a run**: its exit code, and what its build concludes. -/
noncomputable def ending (s : Surroundings) (fs : Files) (a : RunArguments) (config : Config) :
    Nat × Option Conclusion :=
  let e := a.engine s config
  if a.Refused fs config then (ExitCode.refusedRequest.number, none)
  else if e.BreaksDown a.asked false then (ExitCode.brokenDown.number, none)
  else
    let conclusion := e.conclusion a.asked
    ((exitCode conclusion.outcome).number, some conclusion)

/-- **What can become of a run**: its request is refused, its build breaks down, or the program
ends as the build does. -/
theorem runAlong_cases (s : Surroundings) (fs : Files) (inv : Invocation) (a : RunArguments)
    (config : Config) (choices : List Choice) :
    a.Refused fs config ∧ exitNumber (a.runAlong choices s fs inv config) = 3 ∧
      a.summaryAlong choices s fs inv config = none ∨
    ¬ a.Refused fs config ∧ (a.engine s config).BreaksDown a.asked false ∧
      exitNumber (a.runAlong choices s fs inv config) = 101 ∧
      a.summaryAlong choices s fs inv config = none ∨
    ¬ a.Refused fs config ∧ ¬ (a.engine s config).BreaksDown a.asked false ∧
      ∃ request summary, request.tasks = a.asked.tasks ∧ request.launchables = [] ∧
        ((a.engine s config).buildAlong choices request (Scopes.generator {}).1 false
          s.start).summary? = some summary ∧
        exitNumber (a.runAlong choices s fs inv config) = (exitCode summary.outcome).number ∧
        a.summaryAlong choices s fs inv config = some summary := by
  unfold runAlong runBy summaryAlong
  rcases request_cases s fs inv a config with ⟨hr, error, he⟩ | ⟨hr, request, he, ht, hl⟩
  · rw [he]
    exact .inl ⟨hr, rfl, rfl⟩
  · let built := (a.engine s config).buildAlong choices request (Scopes.generator {}).1 false s.start
    have hdown : built.summary? = none ↔ (a.engine s config).BreaksDown a.asked false := by
      rw [Engine.summary?_eq_none_iff, Bool.and_false]
      exact Engine.breaksDown_congr ht hl
    have hbuilt : a.builtBy (Engine.buildAlong choices) s config request = built := rfl
    rw [he]
    simp only [hbuilt, resultOf]
    cases hs : built.summary? with
    | none => exact .inr (.inl ⟨hr, hdown.mp hs, rfl, rfl⟩)
    | some summary =>
      have hup := hdown.not.mp (hs ▸ Option.some_ne_none summary)
      exact .inr (.inr ⟨hr, hup, request, summary, ht, hl, hs, rfl, rfl⟩)

/-- Nothing is requested in the build of a run in which nobody chooses to cancel. -/
theorem requested_along (s : Surroundings) (a : RunArguments) (config : Config) (request : Request)
    (g : Generator) (start : Timestamp) (hc : .cancel ∉ choices) :
    ((a.engine s config).buildAlong choices request g false start).requested = false :=
  Engine.requested_buildAlong (Workspace.neverCancels_registry _) hc

/-- **A run that nobody cancels comes to its ending**, whatever it shows and whoever takes the
steps of its build. -/
theorem ending_runAlong (s : Surroundings) (fs : Files) (inv : Invocation) (a : RunArguments)
    (config : Config) (hc : .cancel ∉ choices) :
    (exitNumber (a.runAlong choices s fs inv config),
      (a.summaryAlong choices s fs inv config).map Summary.conclusion) = a.ending s fs config := by
  unfold ending
  rcases runAlong_cases s fs inv a config choices with
    ⟨hr, hcode, hs⟩ | ⟨hr, hd, hcode, hs⟩ | ⟨hr, hd, request, summary, ht, hl, hbuild, hcode, hs⟩ <;>
    rw [hcode, hs]
  · rw [if_pos hr]
    rfl
  · rw [if_neg hr, if_pos hd]
    rfl
  · have hconclusion := Engine.conclusion_buildAlong hbuild
      (requested_along s a config request (Scopes.generator {}).1 s.start hc)
    have hasked : (a.engine s config).conclusion request = (a.engine s config).conclusion a.asked :=
      Engine.conclusion_congr ht hl
    rw [if_neg hr, if_neg hd, ← hasked, ← hconclusion]
    rfl

/-! ## 3. Runs -/

/-- The targets of a run: those on the command line, each once, or else the default tasks. -/
def targets (a : RunArguments) (r : Registry) : List String :=
  (nonEmpty (distinct a.tasks)).getD r.defaultTasks

theorem ofRequest_asked (a : RunArguments) (r : Registry) :
    Plan.ofRequest r a.asked = Plan.ofTargets r (a.targets r) := by
  unfold Plan.ofRequest asked
  rw [Plan.targetsOf_of_tasks]
  rfl

theorem exitCode_eq_zero_iff {outcome : BuildOutcome} :
    (exitCode outcome).number = 0 ↔ outcome = .succeeded := by
  cases outcome <;> simp [exitCode, ExitCode.number]

/-- **When a run that nobody cancels succeeds.** -/
theorem exitNumber_eq_zero_iff (s : Surroundings) (inv : Invocation) (hc : .cancel ∉ choices) :
    let r := (a.engine s config).registry
    exitNumber (a.runAlong choices s fs inv config) = 0 ↔
      ∃ summary, a.summaryAlong choices s fs inv config = some summary ∧
        (∃ plan, Plan.ofTargets r (a.targets r) = .ok plan) ∧
        ∀ path, r.Reachable (a.targets r) path →
          ∃ report ∈ summary.tasks, report.path = path ∧ report.status.isSuccess = true := by
  intro r
  rcases runAlong_cases s fs inv a config choices with
    ⟨-, hcode, hs⟩ | ⟨-, -, hcode, hs⟩ | ⟨-, -, request, built, ht, hl, hbuild, hcode, hs⟩ <;>
    rw [hcode, hs]
  · simp
  · simp
  · have hsucceeded := Engine.succeeded_buildAlong_iff hbuild
      (requested_along s a config request (Scopes.generator {}).1 s.start hc)
    have htargets : Plan.targetsOf r request.tasks request.launchables = .ok (a.targets r) := by
      rw [ht, hl]
      exact Plan.targetsOf_of_tasks r _
    rw [exitCode_eq_zero_iff, hsucceeded]
    constructor
    · rintro ⟨targets, plan, ht, hp, hall⟩
      cases htargets.symm.trans ht
      exact ⟨_, rfl, ⟨plan, hp⟩, hall⟩
    · rintro ⟨summary, he, ⟨plan, hp⟩, hall⟩
      cases he
      exact ⟨_, plan, htargets, hp, hall⟩

/-- The build of a run breaks down exactly if its targets can be planned, and it asks for more
permits than there can be. -/
theorem breaksDown_asked_iff (s : Surroundings) (a : RunArguments) (config : Config) :
    let e := a.engine s config
    e.BreaksDown a.asked false ↔
      (∃ plan, Plan.ofTargets e.registry (a.targets e.registry) = .ok plan) ∧
        ScheduleOptions.maxPermits < e.options.permits := by
  intro e
  rw [Engine.breaksDown_iff, ofRequest_asked]

/-- **Which exit codes there are** for a run that nobody cancels, and when the two come that no
build reports. -/
theorem exitNumber_cases (s : Surroundings) (inv : Invocation) (hc : .cancel ∉ choices) :
    let code := exitNumber (a.runAlong choices s fs inv config)
    (code = 3 ↔ a.Refused fs config) ∧
      (code = 101 ↔ ¬ a.Refused fs config ∧ (a.engine s config).BreaksDown a.asked false) ∧
      (code = 0 ∨ code = 3 ∨ code = 4 ∨ code = 101) := by
  intro code
  rcases runAlong_cases s fs inv a config choices with
    ⟨hr, hcode, -⟩ | ⟨hr, hd, hcode, -⟩ | ⟨hr, hd, request, summary, -, -, hbuild, hcode, -⟩
  · simp [code, hcode, hr]
  · simp [code, hcode, hr, hd]
  · have hconclusion := Engine.conclusion_buildAlong hbuild
      (requested_along s a config request (Scopes.generator {}).1 s.start hc)
    have houtcome := Engine.outcome_conclusion (a.engine s config) request
    rw [← hconclusion] at houtcome
    simp only [Summary.conclusion] at houtcome
    rcases houtcome with ho | ho <;> simp [code, hcode, hr, hd, ho, exitCode, ExitCode.number]

/-- Without a deadline the build of a run is driven to its end, and nobody cancels it. -/
theorem run_eq_runAlong (s : Surroundings) (fs : Files) (inv : Invocation) (config : Config)
    (h : a.cancelAfter = none) : a.run s fs inv config = a.runAlong [] s fs inv config := by
  unfold run runAlong
  rw [h]
  rfl

/-- **Two command lines that differ in what is shown** end the program alike. -/
theorem exitNumber_perform (s : Surroundings) {inv inv' : Invocation} {noTaskEvents : Bool}
    (hdirectory : inv'.directory = inv.directory) (hconfig : inv'.config = inv.config)
    (ho : inv.order = .run a) (ho' : inv'.order = .run { a with noTaskEvents })
    (hn : a.cancelAfter = none) : exitNumber (inv'.perform s) = exitNumber (inv.perform s) := by
  have henter : inv'.enter s.files = inv.enter s.files := by
    unfold Invocation.enter
    rw [hdirectory]
  unfold Invocation.perform
  rw [ho, ho', henter]
  cases inv.enter s.files with
  | error error => rfl
  | ok fs =>
    have hload : inv'.loadConfig fs = inv.loadConfig fs := by
      unfold Invocation.loadConfig
      rw [hconfig]
    simp only [bind, Except.bind, hload]
    cases inv.loadConfig fs with
    | error error => rfl
    | ok loaded =>
      obtain ⟨config, path⟩ := loaded
      have hnil : Choice.cancel ∉ ([] : List Choice) := List.not_mem_nil
      let other := { a with noTaskEvents }
      change exitNumber (other.run s fs inv' config) = exitNumber (a.run s fs inv config)
      rw [a.run_eq_runAlong s fs inv config hn, other.run_eq_runAlong s fs inv' config hn]
      exact congrArg Prod.fst ((ending_runAlong s fs inv' other config hnil).trans
        (ending_runAlong s fs inv a config hnil).symm)

/-- **How a run ends** that has no deadline, in whatever order the scheduler and the workers take
their steps, as long as nobody interrupts it.

What is shown makes no difference: neither the global options nor whether there are events of tasks
change the exit code, or anything in the summary but the times.  The exit code is 3 exactly if the
request is refused.  It is 101 exactly if the request can be planned but asks for more permits than
there can be.  Otherwise it is 0 if the targets can be planned and everything that can be reached
from them ended well, and 4 if not. -/
theorem runAlong_ends (s : Surroundings) (fs : Files) (a : RunArguments) (config : Config) :
    let e := a.engine s config
    let targets := a.targets e.registry
    let planned := ∃ plan, Plan.ofTargets e.registry targets = .ok plan
    (a.cancelAfter = none → ∀ inv, a.run s fs inv config = a.runAlong [] s fs inv config) ∧
    ∀ inv choices, .cancel ∉ choices →
      (∀ inv' noTaskEvents choices', .cancel ∉ choices' →
        let other := { a with noTaskEvents }
        exitNumber (other.runAlong choices' s fs inv' config) =
            exitNumber (a.runAlong choices s fs inv config) ∧
          (other.summaryAlong choices' s fs inv' config).map Summary.conclusion =
            (a.summaryAlong choices s fs inv config).map Summary.conclusion) ∧
      let code := exitNumber (a.runAlong choices s fs inv config)
      (code = 3 ↔ a.Refused fs config) ∧
      (code = 101 ↔ ¬ a.Refused fs config ∧ planned ∧
        ScheduleOptions.maxPermits < e.options.permits) ∧
      (code = 0 ↔ ∃ summary, a.summaryAlong choices s fs inv config = some summary ∧ planned ∧
        ∀ path, e.registry.Reachable targets path →
          ∃ report ∈ summary.tasks, report.path = path ∧ report.status.isSuccess = true) ∧
      (code = 0 ∨ code = 3 ∨ code = 4 ∨ code = 101) := by
  intro e targets planned
  refine ⟨?_, fun inv choices hc => ⟨?_, ?_⟩⟩
  · intro hnone inv
    exact a.run_eq_runAlong s fs inv config hnone
  · intro inv' noTaskEvents choices' hc' other
    -- an ending reads nothing of what is shown, so the two runs have the same one
    have hending := (ending_runAlong s fs inv' other config hc').trans
      (ending_runAlong s fs inv a config hc).symm
    exact Prod.ext_iff.mp hending
  · obtain ⟨hrefused, hdown, hcodes⟩ := exitNumber_cases s inv hc
    exact ⟨hrefused, hdown.trans (and_congr_right fun _ => breaksDown_asked_iff s a config),
      exitNumber_eq_zero_iff s inv hc, hcodes⟩

/-! ## 4. A workspace of one task -/

namespace OneTask

/-- One task, which succeeds. -/
def workspace : Config where
  workspace := { tasks := [{ path := ":app" }] }

/-- Runs the task with a concurrency. -/
def arguments (concurrency : Option UInt64) : RunArguments where
  tasks := [":app"]
  concurrency := concurrency

/-- Where it is run. -/
def surroundings : Surroundings where
  files := .empty
  program := "buildlink"
  start := .epoch
  runtime := { parallelism := some 2, lost := fun _ => "task 1 panicked" }

theorem not_refused (concurrency : Option UInt64) :
    ¬ (arguments concurrency).Refused .empty workspace := by
  rintro (⟨home, hhome, -⟩ | ⟨path, hpath, hblank⟩)
  · exact nomatch hhome
  · obtain rfl := List.mem_singleton.mp hpath
    exact absurd hblank (by decide)

/-- The steps of a build of the task: its wave begins, it is handed to a worker, the worker goes
through its script, and the wave ends. -/
def steps : List Choice :=
  [.scheduler, .scheduler] ++ List.replicate 7 (.worker 0) ++ [.scheduler]

/-- The engine with the default concurrency. -/
abbrev engine : Engine := (arguments none).engine surroundings workspace

theorem outcome_eq : (engine.buildAlong steps (arguments none).asked (Scopes.generator {}).1 false
    .epoch).summary?.map (·.outcome) = some .succeeded := by
  rw [Engine.buildAlong_of_isFinished]
  · rfl
  · intro plan hp
    have he : Plan.ofRequest engine.registry (arguments none).asked =
        .ok ⟨[⟨":app", [], 0⟩], [":app"], [[":app"]]⟩ := rfl
    cases he.symm.trans hp
    rfl

/-- With the default concurrency the run ends well. -/
theorem ending_eq_zero : ((arguments none).ending surroundings .empty workspace).1 = 0 := by
  have hn : Choice.cancel ∉ steps := by decide
  obtain ⟨summary, hs, ho⟩ := Option.map_eq_some_iff.mp outcome_eq
  have hconclusion := Engine.conclusion_buildAlong hs
    (requested_along surroundings _ workspace _ (Scopes.generator {}).1 .epoch hn)
  have houtcome : (engine.conclusion (arguments none).asked).outcome = .succeeded :=
    (congrArg Conclusion.outcome hconclusion).symm.trans ho
  unfold ending
  rw [if_neg (not_refused none), if_neg fun hdown => absurd hdown.permits (by decide)]
  exact exitCode_eq_zero_iff.mpr houtcome

end OneTask

/-- With the default concurrency the task ends well, whatever is shown. -/
theorem run_oneTask_endsWell :
    let a := OneTask.arguments none
    let other := { a with noTaskEvents := true }
    a.cancelAfter = none ∧ Choice.cancel ∉ [Choice.scheduler] ∧
      exitNumber (a.run OneTask.surroundings .empty { order := .run a } OneTask.workspace) = 0 ∧
      exitNumber (other.runAlong [.scheduler] OneTask.surroundings .empty
        { order := .run other, quiet := true, verbose := true, format := .json }
        OneTask.workspace) = 0 := by
  intro a other
  have hnil : Choice.cancel ∉ ([] : List Choice) := by decide
  have hn : Choice.cancel ∉ [Choice.scheduler] := by decide
  have hcode : exitNumber (a.runAlong [] OneTask.surroundings .empty { order := .run a }
      OneTask.workspace) = 0 :=
    (congrArg Prod.fst (ending_runAlong OneTask.surroundings .empty { order := .run a } a
      OneTask.workspace hnil)).trans OneTask.ending_eq_zero
  obtain ⟨hdriven, hrun⟩ := runAlong_ends OneTask.surroundings .empty a OneTask.workspace
  refine ⟨rfl, hn, ?_, ?_⟩
  · rw [hdriven rfl]
    exact hcode
  · exact ((hrun _ [] hnil).1 _ true [.scheduler] hn).1.trans hcode

/-- **A run may break down** whose configuration is valid, whose request is not refused and that
nobody cancels, since it asks for one permit more than there can be. -/
theorem run_oneTask_breaksDown :
    let a := OneTask.arguments (some 2305843009213693952)
    Config.validate .empty OneTask.workspace = .ok () ∧ ¬ a.Refused .empty OneTask.workspace ∧
      a.cancelAfter = none ∧
      exitNumber (a.run OneTask.surroundings .empty { order := .run a } OneTask.workspace) = 101 :=
  ⟨rfl, OneTask.not_refused _, rfl, rfl⟩

end RunArguments

end BuildStream
