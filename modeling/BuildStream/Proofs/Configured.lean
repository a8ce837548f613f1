/-
# What a configured task does

A configured task waits, runs its tests one after the other, and ends with a result that depends on
how many of them failed.  It asks about cancellation while it waits and at no other time, so a task
that is never told of one is not interrupted (`Script.path_work`).

The tests are run by a recursion that carries the number of failures along.  Whatever that number
is, the tests that are left are all run, each between its own two hooks (`Script.Tested`), and the
number grows by those of them that fail (`Script.path_runTests`).  So the task ends as
`TaskConfig.result` says of the failures among all of its tests (`Script.path_configured`).
-/
import BuildStream.Proofs.Script
import BuildStream.Task.Configured

namespace BuildStream

/-! ## 1. Results -/

namespace TestConfig

/-- How a configured test ends. -/
def result (t : TestConfig) : ActionResult :=
  match t.fail with
  | some message => .error message
  | none => .returns .executed

/-- The run of a configured test in a task, with its stamp. -/
def runIn (t : TestConfig) (task : TaskRun) (stamp : Stamp) : TestRun :=
  ⟨stamp, t.name, t.className, task⟩

theorem action_eq (t : TestConfig) : t.action = .finish t.result := rfl

/-- The errors of a configured test can be rendered. -/
theorem result_ne (t : TestConfig) : t.result ≠ .fails .unrenderable := by
  unfold result
  cases t.fail <;> exact nofun

theorem isFailed_result (t : TestConfig) : t.result.isFailed = t.fail.isSome := by
  unfold result
  cases t.fail <;> rfl

end TestConfig

namespace TaskConfig

/-- How many tests of a configured task fail. -/
def failing (t : TaskConfig) : Nat := t.tests.countP (·.fail.isSome)

/-- How a configured task ends after so many tests failed. -/
def result (t : TaskConfig) (failed : Nat) : ActionResult :=
  if 0 < failed then failedTask t.path (failedTestsMessage failed t.tests.length)
  else t.outcome.result t.path

/-- The errors of a configured task can be rendered. -/
theorem result_ne (t : TaskConfig) (failed : Nat) : t.result failed ≠ .fails .unrenderable := by
  unfold result
  split
  · exact nofun
  · cases t.outcome <;> exact nofun

end TaskConfig

namespace Script

variable {ε : Type} {r : Reporter ε} {lost : String} {run : TaskRun}
  {finish : ActionResult → Script ε}
  {next : Action} {interrupted : ActionResult} {signs : List (Sign ε)} {report : TaskReport}

/-! ## 2. Waiting -/

/-- A worker shows questions that are answered with no, and goes on with an action. -/
def Waits (r : Reporter ε) (run : TaskRun) (finish : ActionResult → Script ε) (next : Action)
    (signs : List (Sign ε)) (report : TaskReport) : Prop :=
  ∃ asks rest, signs = asks ++ rest ∧ (∀ sign ∈ asks, sign = .asked (some run) false) ∧
    Path run (ofAction r run finish next) rest (.done report)

theorem Waits.refl (h : Path run (ofAction r run finish next) signs (.done report)) :
    Waits r run finish next signs report := ⟨[], signs, rfl, List.forall_mem_nil _, h⟩

theorem Waits.prepend {asks rest : List (Sign ε)}
    (hasks : ∀ sign ∈ asks, sign = .asked (some run) false)
    (h : Waits r run finish next rest report) :
    Waits r run finish next (asks ++ rest) report := by
  obtain ⟨more, rest, rfl, hmore, hp⟩ := h
  refine ⟨asks ++ more, rest, (List.append_assoc ..).symm, fun sign hs => ?_, hp⟩
  exact (List.mem_append.mp hs).elim (hasks sign) (hmore sign)

/-- A question that is not answered with yes is answered with no, and a pause comes next. -/
theorem Waits.of_poll {yes after : Action} {millis : Nat}
    (h : Path run (ofAction r run finish
      (.poll fun requested => if requested then yes else .pause millis after)) signs (.done report))
    (hquiet : .asked (some run) true ∉ signs)
    (hafter : ∀ rest, .asked (some run) true ∉ rest →
      Path run (ofAction r run finish after) rest (.done report) →
      Waits r run finish next rest report) : Waits r run finish next signs report := by
  cases h with
  | poll answer h =>
    cases answer with
    | true => exact absurd List.mem_cons_self hquiet
    | false =>
      have hpause : Path run (.pause millis (ofAction r run finish after)) _ (.done report) := h
      cases hpause with
      | pause _ h =>
        have hrest := hafter _ (fun hs => hquiet (List.mem_cons_of_mem _ hs)) h
        exact hrest.prepend (List.forall_mem_singleton.mpr rfl)

theorem path_waitIntervals (n : Nat)
    (h : Path run (ofAction r run finish (.waitIntervals interrupted next n)) signs (.done report))
    (hquiet : .asked (some run) true ∉ signs) : Waits r run finish next signs report := by
  induction n generalizing signs with
  | zero => exact .refl h
  | succ n ih => exact .of_poll h hquiet fun rest hrest hp => ih hp hrest

/-- **A worker that is not told of a cancellation** waits to the end, and then goes on. -/
theorem path_work {path : TaskPath} (millis : Nat)
    (h : Path run (ofAction r run finish (.work path millis next)) signs (.done report))
    (hquiet : .asked (some run) true ∉ signs) : Waits r run finish next signs report := by
  obtain ⟨asks, rest, rfl, hasks, hlast⟩ := path_waitIntervals _ h hquiet
  refine Waits.prepend hasks ?_
  -- what is left is less than an interval, and there may be nothing left at all
  split at hlast
  · exact .refl hlast
  · refine .of_poll hlast (fun hs => hquiet (List.mem_append_right _ hs)) fun rest _ hp => ?_
    exact .refl hp

/-! ## 3. Tests -/

/-- What the worker of a task shows that runs configured tests one after the other: it takes a
stamp for each of them, and shows the two hooks of a run that has the test's name and class, with a
snapshot of how the test ends. -/
inductive Tested (r : Reporter ε) (run : TaskRun) :
    List TestConfig → List (TestRun × RunState) → List (Sign ε) → Prop
  | nil : Tested r run [] [] []
  | cons {tests : List TestConfig} {ran : List (TestRun × RunState)} {rest : List (Sign ε)}
      (t : TestConfig) (stamp : Stamp) (before after began ended : Timestamp) :
      Tested r run tests ran rest →
      Tested r run (t :: tests) ((t.runIn run stamp, .ofResult began ended t.result) :: ran)
        (.stamped run stamp :: (r.signs before (.beforeTest (t.runIn run stamp)) ++
          (r.signs after (.afterTest (t.runIn run stamp) (.ofResult began ended t.result)) ++
            rest)))

/-- **All tests are run** that are left, also after others failed, and then the task ends with the
number of all that failed. -/
theorem path_runTests (t : TaskConfig) (tests : List TestConfig) (failed : Nat)
    (h : Path run (ofAction r run finish (t.runTests failed tests)) signs (.done report)) :
    ∃ ran shown rest, signs = shown ++ rest ∧ Tested r run tests ran shown ∧
      Path run (finish (t.result (failed + tests.countP (·.fail.isSome)))) rest (.done report) := by
  induction tests generalizing failed signs with
  | nil => exact ⟨[], [], signs, rfl, .nil, h⟩
  | cons test tests ih =>
    cases h with
    | stamp stamp h =>
      obtain ⟨before, _, rfl, h1⟩ := path_tell h
      obtain ⟨began, h2⟩ := path_clock h1
      -- the action of the test is its result, and the hook after it comes next
      rw [TestConfig.action_eq] at h2
      obtain ⟨ended, h3⟩ := path_clock h2
      obtain ⟨after, _, rfl, h4⟩ := path_tell h3
      rw [RunState.isFailed_ofResult, TestConfig.isFailed_result] at h4
      obtain ⟨ran, shown, rest, rfl, hshown, hp⟩ := ih _ h4
      refine ⟨_, _, rest, ?_,
        .cons test stamp before after (r.moment began) (r.moment ended) hshown, ?_⟩
      · simp only [List.cons_append, List.append_assoc, TestConfig.runIn]
      · rw [List.countP_cons]
        cases hfail : test.fail.isSome with
        | false => simpa [hfail] using hp
        | true => simpa [hfail, Nat.add_assoc, Nat.add_comm 1] using hp

/-! ## 4. Tasks -/

/-- **What a configured task shows** that is not told of a cancellation: the hook before it, some
questions, all of its tests, and the hook after it with a snapshot of how it ends. -/
theorem path_configured {t : TaskConfig}
    (h : Path run (ofTask r lost run t.action) signs (.done report))
    (hquiet : .asked (some run) true ∉ signs) :
    report.path = run.path ∧ report.verdict = (t.result t.failing).verdict run.path lost ∧
      ∃ before asks ran shown after began ended,
        signs = r.signs before (.beforeTask run) ++ (asks ++ (shown ++
          r.signs after (.afterTask run (.ofResult began ended (t.result t.failing))))) ∧
        (∀ sign ∈ asks, sign = .asked (some run) false) ∧ Tested r run t.tests ran shown := by
  obtain ⟨_, h1⟩ := path_clock h
  obtain ⟨before, _, rfl, h2⟩ := path_tell h1
  obtain ⟨_, h3⟩ := path_clock h2
  obtain ⟨asks, _, rfl, hasks, h4⟩ :=
    path_work _ h3 fun hs => hquiet (List.mem_append_right _ hs)
  obtain ⟨ran, shown, last, rfl, hshown, h5⟩ := path_runTests t t.tests 0 h4
  rw [Nat.zero_add] at h5
  obtain ⟨hpath, hverdict, hlast⟩ := path_finishTask h5
  rcases hlast with ⟨after, _, rfl, began, ended, rfl⟩ | ⟨-, hr⟩
  · exact ⟨hpath, hverdict, before, asks, ran, shown, after, began, ended, rfl, hasks, hshown⟩
  · exact absurd hr (t.result_ne _)

end Script

end BuildStream
