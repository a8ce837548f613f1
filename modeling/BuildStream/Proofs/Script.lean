/-
# What workers show

A script branches on the clock, on stamps and on answers, so what its worker shows is not one list
of signs but one for each way through the script.  `Path` is such a way, from one script to
another.  Two facts hold of every way through the script of a task.

* **Ownership.**  Every sign that the worker shows is a sign of its own run (`owned_ofTask`), so
  the signs of one worker can be found again among those of all (`Path.owned`).
* **Brackets.**  A way to the end shows the hook before the task, then what its action shows, then
  the hook after the task (`path_ofTask`).  What an action shows (`Shown`) is questions and tests,
  and each test stands between its own two hooks, around what it shows itself.

The hook after the task is missing in one case only: the error of the action cannot be rendered,
and the worker is lost.

What is reported in the end depends on the answers only, and on the words for a lost worker: what
the clock shows and which stamps are taken makes no difference to a `Verdict`.  A way on which no
question is answered with yes is `Quiet`, and all quiet ways to the end report the same.
-/
import BuildStream.Proofs.Outcome
import BuildStream.Schedule.Script

namespace BuildStream

/-! ## 1. Whose signs -/

/-- What a hook is about. -/
inductive Subject where
  | build (run : BuildRun)
  | task (run : TaskRun)
  | test (run : TestRun)
deriving DecidableEq

/-- The run of a task that a hook belongs to; the hooks of a build belong to none. -/
def Subject.task? : Subject → Option TaskRun
  | build _ => none
  | task run => some run
  | test run => some run.task

/-- What a hook is about. -/
def Hook.subject : Hook → Subject
  | beforeBuild b => .build b
  | afterBuild b _ => .build b
  | beforeTask t => .task t
  | afterTask t _ => .task t
  | beforeTest t => .test t
  | afterTest t _ => .test t

namespace Sign

variable {ε : Type}

/-- What a sign of a hook is about. -/
def subject? : Sign ε → Option Subject
  | called hook => some hook.subject
  | sent hook _ => some hook.subject
  | _ => none

/-- The answer that is given. -/
def answer? : Sign ε → Option Bool
  | asked _ answer => some answer
  | _ => none

/-- The answers that are given, in order. -/
def answers (signs : List (Sign ε)) : List Bool := signs.filterMap answer?

/-- The run whose worker shows the sign. -/
def worker? : Sign ε → Option TaskRun
  | begun _ => none
  | handed _ => none
  | stamped run _ => some run
  | asked worker _ => worker
  | called hook => hook.subject.task?
  | sent hook _ => hook.subject.task?

end Sign

/-- All signs of a hook are about the same. -/
theorem Reporter.subject_of_mem_signs {ε : Type} {r : Reporter ε} {now : Timestamp} {hook : Hook}
    {sign : Sign ε} (h : sign ∈ r.signs now hook) : sign.subject? = some hook.subject := by
  rcases List.mem_cons.mp h with rfl | h
  · rfl
  · obtain ⟨e, -, rfl⟩ := List.mem_map.mp h
    rfl

namespace Sign

variable {ε : Type}

@[simp] theorem answers_nil : answers ([] : List (Sign ε)) = [] := rfl

@[simp] theorem answers_append (signs more : List (Sign ε)) :
    answers (signs ++ more) = answers signs ++ answers more :=
  List.filterMap_append

@[simp] theorem answers_asked (worker : Option TaskRun) (answer : Bool) (signs : List (Sign ε)) :
    answers (.asked worker answer :: signs) = answer :: answers signs := rfl

@[simp] theorem answers_stamped (run : TaskRun) (stamp : Stamp) (signs : List (Sign ε)) :
    answers (.stamped run stamp :: signs) = answers signs := rfl

/-- The signs of a hook answer no question. -/
@[simp] theorem answers_signs (r : Reporter ε) (now : Timestamp) (hook : Hook) :
    answers (r.signs now hook) = [] := by
  refine List.filterMap_eq_nil_iff.mpr fun sign hs => ?_
  have hsub := Reporter.subject_of_mem_signs hs
  cases sign with
  | asked worker answer => exact nomatch hsub
  | _ => rfl

end Sign

/-- The worker of a sign of a hook is that of the task the hook belongs to. -/
theorem Sign.worker?_of_subject? {ε : Type} {sign : Sign ε} {subject : Subject}
    (h : sign.subject? = some subject) : sign.worker? = subject.task? := by
  cases sign <;> simp_all [subject?, worker?]

namespace Script

variable {ε : Type}

/-! ## 2. Ways through a script -/

/-- The worker of a run can get from one script to another, showing signs on its way. -/
inductive Path (run : TaskRun) : Script ε → List (Sign ε) → Script ε → Prop
  | refl (s : Script ε) : Path run s [] s
  | emit {next last : Script ε} {signs : List (Sign ε)} (sign : Sign ε) :
      Path run next signs last → Path run (.emit sign next) (sign :: signs) last
  | clock {next : Nat → Script ε} {last : Script ε} {signs : List (Sign ε)} (now : Nat) :
      Path run (next now) signs last → Path run (.clock next) signs last
  | stamp {next : Stamp → Script ε} {last : Script ε} {signs : List (Sign ε)} (stamp : Stamp) :
      Path run (next stamp) signs last → Path run (.stamp next) (.stamped run stamp :: signs) last
  | poll {next : Bool → Script ε} {last : Script ε} {signs : List (Sign ε)} (answer : Bool) :
      Path run (next answer) signs last →
      Path run (.poll next) (.asked (some run) answer :: signs) last
  | cancel {next last : Script ε} {signs : List (Sign ε)} :
      Path run next signs last → Path run (.cancel next) signs last
  | pause {next last : Script ε} {signs : List (Sign ε)} (millis : Nat) :
      Path run next signs last → Path run (.pause millis next) signs last

namespace Path

variable {run : TaskRun} {s t u : Script ε} {signs more : List (Sign ε)}

/-- One way after the other. -/
theorem trans (h : Path run s signs t) (h' : Path run t more u) :
    Path run s (signs ++ more) u := by
  induction h with
  | refl s => exact h'
  | emit sign _ ih => exact .emit sign (ih h')
  | clock now _ ih => exact .clock now (ih h')
  | stamp stamp _ ih => exact .stamp stamp (ih h')
  | poll answer _ ih => exact .poll answer (ih h')
  | cancel _ ih => exact .cancel (ih h')
  | pause millis _ ih => exact .pause millis (ih h')

end Path

/-! ## 3. Ownership -/

/-- Whatever is still emitted is a sign of a hook that belongs to a run. -/
def Owned (run : TaskRun) : Script ε → Prop
  | .done _ => True
  | .emit sign next => sign.subject?.bind Subject.task? = some run ∧ Owned run next
  | .clock next => ∀ now, Owned run (next now)
  | .stamp next => ∀ stamp, Owned run (next stamp)
  | .poll next => ∀ answer, Owned run (next answer)
  | .cancel next => Owned run next
  | .pause _ next => Owned run next

/-- A way through a script of a run shows signs of that run only. -/
theorem Path.owned {run : TaskRun} {s t : Script ε} {signs : List (Sign ε)}
    (h : Path run s signs t) (ho : s.Owned run) :
    (∀ sign ∈ signs, sign.worker? = some run) ∧ t.Owned run := by
  induction h with
  | refl s => exact ⟨by simp, ho⟩
  | emit sign _ ih =>
    obtain ⟨subject, hs, ht⟩ := Option.bind_eq_some_iff.mp ho.1
    have hw : sign.worker? = some run := (Sign.worker?_of_subject? hs).trans ht
    exact ⟨by simpa [hw] using (ih ho.2).1, (ih ho.2).2⟩
  | clock now _ ih => exact ih (ho now)
  | stamp stamp _ ih => exact ⟨by simpa [Sign.worker?] using (ih (ho stamp)).1, (ih (ho stamp)).2⟩
  | poll answer _ ih =>
    exact ⟨by simpa [Sign.worker?] using (ih (ho answer)).1, (ih (ho answer)).2⟩
  | cancel _ ih => exact ih ho
  | pause millis _ ih => exact ih ho

variable {run : TaskRun} {r : Reporter ε}

theorem owned_emitAll {next : Script ε} (hn : next.Owned run) {signs : List (Sign ε)}
    (hs : ∀ sign ∈ signs, sign.subject?.bind Subject.task? = some run) :
    (emitAll signs next).Owned run := by
  induction signs with
  | nil => exact hn
  | cons sign signs ih =>
    exact ⟨hs sign (by simp), ih fun x hx => hs x (by simp [hx])⟩

theorem owned_tell {hook : Hook} {next : Script ε} (hh : hook.subject.task? = some run)
    (hn : next.Owned run) : (tell r hook next).Owned run :=
  fun _ => owned_emitAll hn fun _ h => by rw [Reporter.subject_of_mem_signs h]; exact hh

theorem owned_ofAction (a : Action) {finish : ActionResult → Script ε}
    (hf : ∀ result, (finish result).Owned run) : (ofAction r run finish a).Owned run := by
  induction a generalizing finish with
  | finish result => exact hf result
  | poll next ih => exact fun answer => ih answer hf
  | cancel next ih => exact ih hf
  | pause millis next ih => exact ih hf
  | test name className body next ihb ihn =>
    intro stamp
    refine owned_tell rfl fun started => ihb ?_
    intro result ended
    exact owned_tell rfl (ihn _ hf)

theorem owned_finishTask (lost : String) (began started : Nat) (result : ActionResult) :
    (finishTask r lost run began started result).Owned run := by
  intro ended
  dsimp only
  split
  · trivial
  · exact owned_tell rfl trivial

/-- **The script of a task belongs to its run.** -/
theorem owned_ofTask (lost : String) (run : TaskRun) (action : Action) :
    (ofTask r lost run action).Owned run :=
  fun _ => owned_tell rfl fun _ => owned_ofAction action fun _ => owned_finishTask _ _ _ _

end Script

namespace Script

variable {ε : Type} {r : Reporter ε} {lost : String} {run : TaskRun}

/-! ## 4. Brackets -/

/-- What an action of a task shows that runs some tests: questions, and the tests, each between its
own hooks. -/
inductive Shown (r : Reporter ε) (run : TaskRun) : List TestRun → List (Sign ε) → Prop
  | nil : Shown r run [] []
  | asked {tests : List TestRun} {rest : List (Sign ε)} (answer : Bool) :
      Shown r run tests rest → Shown r run tests (.asked (some run) answer :: rest)
  | test {inner tests : List TestRun} {body rest : List (Sign ε)} (t : TestRun)
      (before after : Timestamp) (state : RunState) :
      t.task = run → Shown r run inner body → Shown r run tests rest →
      Shown r run (t :: (inner ++ tests))
        (.stamped run t.stamp :: (r.signs before (.beforeTest t) ++
          (body ++ (r.signs after (.afterTest t state) ++ rest))))

theorem path_emitAll {shown signs : List (Sign ε)} {next : Script ε} {report : TaskReport}
    (h : Path run (emitAll shown next) signs (.done report)) :
    ∃ rest, signs = shown ++ rest ∧ Path run next rest (.done report) := by
  induction shown generalizing signs with
  | nil => exact ⟨signs, rfl, h⟩
  | cons sign shown ih =>
    cases h with
    | emit _ h =>
      obtain ⟨rest, rfl, hr⟩ := ih h
      exact ⟨rest, rfl, hr⟩

theorem path_clock {signs : List (Sign ε)} {next : Nat → Script ε} {report : TaskReport}
    (h : Path run (.clock next) signs (.done report)) :
    ∃ now, Path run (next now) signs (.done report) := by
  cases h with
  | clock now h => exact ⟨now, h⟩

theorem path_tell {signs : List (Sign ε)} {hook : Hook} {next : Script ε} {report : TaskReport}
    (h : Path run (tell r hook next) signs (.done report)) :
    ∃ now rest, signs = r.signs now hook ++ rest ∧ Path run next rest (.done report) := by
  obtain ⟨now, h⟩ := path_clock h
  obtain ⟨rest, rfl, hr⟩ := path_emitAll h
  exact ⟨_, rest, rfl, hr⟩

/-- No question is answered with yes. -/
def Quiet (signs : List (Sign ε)) : Prop :=
  ∀ worker answer, .asked worker answer ∈ signs → answer = false

theorem Quiet.answers {signs : List (Sign ε)} (h : Quiet signs) :
    ∀ answer ∈ Sign.answers signs, answer = false := by
  intro answer ha
  obtain ⟨sign, hs, he⟩ := List.mem_filterMap.mp ha
  cases sign with
  | asked worker b =>
    obtain rfl : b = answer := Option.some.inj he
    exact h worker b hs
  | _ => exact nomatch he

theorem Quiet.append {signs more : List (Sign ε)} (h : Quiet signs) (h' : Quiet more) :
    Quiet (signs ++ more) :=
  fun worker answer ha => (List.mem_append.mp ha).elim (h worker answer) (h' worker answer)

/-- **What an action shows.**  A way through its script is a bracketed part, and then a way through
what follows the result that the action ends with, given the answers that are shown. -/
theorem path_ofAction (a : Action) {finish : ActionResult → Script ε} {signs : List (Sign ε)}
    {report : TaskReport} (h : Path run (ofAction r run finish a) signs (.done report)) :
    ∃ tests shown rest result, signs = shown ++ rest ∧ Shown r run tests shown ∧
      (∀ more, a.given (Sign.answers shown ++ more) = some (result, more)) ∧
      Path run (finish result) rest (.done report) := by
  induction a generalizing finish signs with
  | finish result => exact ⟨[], [], signs, result, rfl, .nil, fun _ => rfl, h⟩
  | poll next ih =>
    cases h with
    | poll answer h =>
      obtain ⟨tests, shown, rest, result, rfl, hs, hg, hp⟩ := ih answer h
      exact ⟨tests, _, rest, result, rfl, .asked answer hs, hg, hp⟩
  | cancel next ih =>
    cases h with
    | cancel h => exact ih h
  | pause millis next ih =>
    cases h with
    | pause _ h => exact ih h
  | test name className body next ihb ihn =>
    cases h with
    | stamp stamp h =>
      obtain ⟨before, _, rfl, h1⟩ := path_tell h
      obtain ⟨started, h2⟩ := path_clock h1
      -- the end of the body is the hook after the test, and then the rest of the action
      obtain ⟨_, body, _, ended, rfl, hbody, hgb, h3⟩ := ihb h2
      obtain ⟨stopped, h4⟩ := path_clock h3
      obtain ⟨after, _, rfl, h5⟩ := path_tell h4
      obtain ⟨_, shown, rest, result, rfl, hs, hgn, hp⟩ := ihn _ h5
      let t : TestRun := ⟨stamp, name, className, run⟩
      let state := RunState.ofResult (r.moment started) (r.moment stopped) ended
      refine ⟨_, _, rest, result, ?_, .test t before after state rfl hbody hs, ?_, hp⟩
      · simp only [List.cons_append, List.append_assoc, t, state]
      · intro more
        rw [RunState.isFailed_ofResult] at hgn
        simp [Action.given, hgb, hgn]

/-- The last signs of a task whose action has a result: the hook after it, or nothing if the error
cannot be rendered. -/
def Concludes (r : Reporter ε) (run : TaskRun) (result : ActionResult) (last : List (Sign ε)) :
    Prop :=
  (∃ after state, last = r.signs after (.afterTask run state) ∧
    ∃ began ended, state = .ofResult began ended result) ∨ last = [] ∧ result = .fails .unrenderable

/-- **The end of a task** reports the verdict on the result of its action. -/
theorem path_finishTask {began started : Nat} {result : ActionResult} {signs : List (Sign ε)}
    {report : TaskReport}
    (h : Path run (finishTask r lost run began started result) signs (.done report)) :
    report.path = run.path ∧ report.verdict = result.verdict run.path lost ∧
      Concludes r run result signs := by
  obtain ⟨ended, h1⟩ := path_clock h
  dsimp only at h1
  split at h1
  · next hnone =>
    cases h1
    have hresult := TaskReport.ofState?_eq_none hnone
    exact ⟨rfl, by rw [hresult]; rfl, .inr ⟨rfl, hresult⟩⟩
  · next hsome =>
    obtain ⟨after, _, rfl, h2⟩ := path_tell h1
    cases h2
    obtain ⟨hpath, hverdict⟩ := TaskReport.verdict_of_ofState? lost hsome
    exact ⟨hpath, hverdict, .inl ⟨after, _, List.append_nil _, _, _, rfl⟩⟩

/-- **What a task shows.**  The hook before it comes first and the hook after it last, unless its
error cannot be rendered, when there is no hook after it.  The verdict is that on the result of its
action, given the answers that are shown. -/
theorem path_ofTask {action : Action} {signs : List (Sign ε)} {report : TaskReport}
    (h : Path run (ofTask r lost run action) signs (.done report)) :
    report.path = run.path ∧ ∃ result, action.given (Sign.answers signs) = some (result, []) ∧
      report.verdict = result.verdict run.path lost ∧
      ∃ before tests shown last, signs = r.signs before (.beforeTask run) ++ (shown ++ last) ∧
        Shown r run tests shown ∧ Concludes r run result last := by
  obtain ⟨began, h1⟩ := path_clock h
  obtain ⟨before, _, rfl, h2⟩ := path_tell h1
  obtain ⟨started, h3⟩ := path_clock h2
  obtain ⟨tests, shown, last, result, rfl, hs, hg, h4⟩ := path_ofAction action h3
  obtain ⟨hpath, hverdict, hlast⟩ := path_finishTask h4
  have hanswers : Sign.answers last = [] := by
    rcases hlast with ⟨after, state, rfl, -⟩ | ⟨rfl, -⟩
    · exact Sign.answers_signs r after _
    · rfl
  refine ⟨hpath, result, ?_, hverdict, before, tests, shown, last, rfl, hs, hlast⟩
  simpa [hanswers] using hg []

end Script

end BuildStream
