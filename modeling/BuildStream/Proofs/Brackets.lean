/-
# Hooks come in brackets

The hook before a run opens a bracket and the hook after it closes it.  Workers take their steps in
any order, so between the two there may be anything that other runs show; what there is of the run
itself, and of the tests inside it, does not depend on the others.  Hence the trace is never looked
at as a whole: `isAbout` takes from it the signs of a few subjects, and what is left of it is known
sign by sign.

* Of a task there are the hook before it and the hook after it (`Completed.filter_task`).
* Of a test there are the hooks around it, and they stand between those of its task
  (`Completed.filter_test`).
* Two subjects of a trace have the same id only if they are the same (`Completed.subject_inj`).

What has to be known of a trace for this is `Completed`, and the trace of a schedule that came to
its end has it (`Schedule.completed`).
-/
import BuildStream.Proofs.Schedule.Trace

namespace BuildStream

variable {ε : Type}

/-! ## 1. Signs about some subjects -/

namespace Subject

/-- What events tell about a subject. -/
def descriptor : Subject → Descriptor
  | build run => run.descriptor
  | task run => run.descriptor
  | test run => run.descriptor

end Subject

namespace Sign

/-- Whether a sign is of a hook of one of some subjects. -/
def isAbout (subjects : List Subject) (sign : Sign ε) : Bool :=
  sign.subject?.any fun subject => decide (subject ∈ subjects)

theorem isAbout_iff {subjects : List Subject} {sign : Sign ε} :
    sign.isAbout subjects = true ↔ ∃ subject ∈ subjects, sign.subject? = some subject := by
  simp [isAbout, Option.any_eq_true, and_comm]

variable {signs : List (Sign ε)} {subject : Subject} {subjects : List Subject}

@[simp] theorem filter_isAbout_nil : signs.filter (isAbout []) = [] :=
  List.filter_eq_nil_iff.mpr fun sign _ ha => by simp [isAbout_iff] at ha

/-- Of signs that are all about the same subject, either all are kept... -/
theorem filter_isAbout (h : ∀ sign ∈ signs, sign.subject? = some subject)
    (hm : subject ∈ subjects) : signs.filter (isAbout subjects) = signs :=
  List.filter_eq_self.mpr fun sign hs => isAbout_iff.mpr ⟨subject, hm, h sign hs⟩

/-- ...or none. -/
theorem filter_isAbout_of_notMem (h : ∀ sign ∈ signs, sign.subject? = some subject)
    (hm : subject ∉ subjects) : signs.filter (isAbout subjects) = [] := by
  refine List.filter_eq_nil_iff.mpr ?_
  intro sign hs ha
  obtain ⟨other, ho, hsub⟩ := isAbout_iff.mp ha
  obtain rfl : subject = other := Option.some.inj ((h sign hs).symm.trans hsub)
  exact hm ho

end Sign

namespace Reporter

variable {r : Reporter ε} {now : Timestamp} {hook : Hook} {subjects : List Subject}

theorem filter_signs (h : hook.subject ∈ subjects) :
    (r.signs now hook).filter (Sign.isAbout subjects) = r.signs now hook :=
  Sign.filter_isAbout (fun _ => subject_of_mem_signs) h

theorem filter_signs_of_notMem (h : hook.subject ∉ subjects) :
    (r.signs now hook).filter (Sign.isAbout subjects) = [] :=
  Sign.filter_isAbout_of_notMem (fun _ => subject_of_mem_signs) h

@[simp] theorem filterMap_stamp_signs : (r.signs now hook).filterMap Sign.stamp? = [] := by
  simp only [signs, List.filterMap_cons, Sign.stamp?, List.filterMap_map]
  exact List.filterMap_eq_nil_iff.mpr fun _ _ => rfl

/-- Whatever is sent for a hook is made of it. -/
theorem mem_emit_of_sent {other : Hook} {e : ε} (h : .sent other e ∈ r.signs now hook) :
    e ∈ r.emit now other := by
  rcases List.mem_cons.mp h with h | h
  · exact nomatch h
  · obtain ⟨x, hx, he⟩ := List.mem_map.mp h
    cases he
    exact hx

end Reporter

/-! ## 2. The tests of a task -/

namespace Script.Shown

variable {r : Reporter ε} {run : TaskRun} {tests : List TestRun} {signs : List (Sign ε)}

/-- The hooks shown are those of the tests. -/
theorem subject (h : Shown r run tests signs) {sign : Sign ε} (hs : sign ∈ signs)
    {subject : Subject} (hsub : sign.subject? = some subject) : ∃ t ∈ tests, subject = .test t := by
  induction h with
  | nil => exact nomatch hs
  | asked answer _ ih =>
    rcases List.mem_cons.mp hs with rfl | hs
    · exact nomatch hsub
    · exact ih hs
  | @test inner tests _ _ t before after state ht _ _ ihb ihr =>
    have here {now : Timestamp} {hook : Hook} (hm : sign ∈ r.signs now hook)
        (ht : hook.subject = .test t) : ∃ x ∈ t :: (inner ++ tests), subject = .test x := by
      rw [Reporter.subject_of_mem_signs hm, ht] at hsub
      exact ⟨t, by simp, (Option.some.inj hsub).symm⟩
    simp only [List.mem_cons, List.mem_append] at hs
    rcases hs with rfl | hs | hs | hs | hs
    · exact nomatch hsub
    · exact here hs rfl
    · obtain ⟨x, hx, he⟩ := ihb hs
      exact ⟨x, by simp [hx], he⟩
    · exact here hs rfl
    · obtain ⟨x, hx, he⟩ := ihr hs
      exact ⟨x, by simp [hx], he⟩

/-- The stamps taken are those of the tests. -/
theorem stamps (h : Shown r run tests signs) :
    signs.filterMap Sign.stamp? = tests.map (·.stamp) := by
  induction h with
  | nil => rfl
  | asked answer _ ih => exact ih
  | test t before after state ht _ _ ihb ihr => simp [Sign.stamp?, ihb, ihr]

/-- A test that is shown took its stamp. -/
theorem stamped (h : Shown r run tests signs) {t : TestRun} (ht : t ∈ tests) :
    .stamped run t.stamp ∈ signs := by
  induction h with
  | nil => exact nomatch ht
  | asked answer _ ih => exact List.mem_cons_of_mem _ (ih ht)
  | test x before after state hx _ _ ihb ihr =>
    simp only [List.mem_cons, List.mem_append] at ht ⊢
    rcases ht with rfl | ht | ht
    · exact .inl rfl
    · exact .inr (.inr (.inl (ihb ht)))
    · exact .inr (.inr (.inr (.inr (ihr ht))))

theorem sent (h : Shown r run tests signs) {hook : Hook} {e : ε} (he : .sent hook e ∈ signs) :
    ∃ now, e ∈ r.emit now hook := by
  induction h with
  | nil => exact nomatch he
  | asked answer _ ih =>
    rcases List.mem_cons.mp he with he | he
    · exact nomatch he
    · exact ih he
  | test t before after state ht _ _ ihb ihr =>
    simp only [List.mem_cons, List.mem_append] at he
    rcases he with he | he | he | he | he
    · exact nomatch he
    · exact ⟨_, Reporter.mem_emit_of_sent he⟩
    · exact ihb he
    · exact ⟨_, Reporter.mem_emit_of_sent he⟩
    · exact ihr he

/-- Of a test that is not among those shown there is nothing. -/
theorem filter_of_notMem (h : Shown r run tests signs) {subjects : List Subject}
    (hn : ∀ t ∈ tests, .test t ∉ subjects) : signs.filter (Sign.isAbout subjects) = [] := by
  refine List.filter_eq_nil_iff.mpr ?_
  intro sign hs ha
  obtain ⟨subject, hm, hsub⟩ := Sign.isAbout_iff.mp ha
  obtain ⟨t, ht, rfl⟩ := h.subject hs hsub
  exact hn t ht hm

/-- The stamp and the hooks of another test do not count. -/
theorem filter_other {t : TestRun} {subjects : List Subject} (hn : .test t ∉ subjects)
    (before after : Timestamp) (state : RunState) (body rest : List (Sign ε)) :
    (.stamped run t.stamp :: (r.signs before (.beforeTest t) ++
        (body ++ (r.signs after (.afterTest t state) ++ rest)))).filter (Sign.isAbout subjects) =
      body.filter (Sign.isAbout subjects) ++ rest.filter (Sign.isAbout subjects) := by
  have hstamp : (Sign.stamped run t.stamp : Sign ε).isAbout subjects = false := rfl
  simp only [List.filter_cons, hstamp, List.filter_append, Bool.false_eq_true, if_false]
  rw [Reporter.filter_signs_of_notMem hn, Reporter.filter_signs_of_notMem hn, List.nil_append,
    List.nil_append]

/-- The hooks of a test are all that counts, if nothing around it or inside it does. -/
theorem filter_self {t : TestRun} {subjects : List Subject} (hm : .test t ∈ subjects)
    (before after : Timestamp) (state : RunState) {body rest : List (Sign ε)}
    (hb : body.filter (Sign.isAbout subjects) = []) (hr : rest.filter (Sign.isAbout subjects) = []) :
    (.stamped run t.stamp :: (r.signs before (.beforeTest t) ++
        (body ++ (r.signs after (.afterTest t state) ++ rest)))).filter (Sign.isAbout subjects) =
      r.signs before (.beforeTest t) ++ r.signs after (.afterTest t state) := by
  have hstamp : (Sign.stamped run t.stamp : Sign ε).isAbout subjects = false := rfl
  simp only [List.filter_cons, hstamp, List.filter_append, Bool.false_eq_true, if_false]
  rw [Reporter.filter_signs hm, Reporter.filter_signs hm, hb, hr, List.nil_append, List.append_nil]

/-- **A test stands between its hooks.**  Of one of the tests there are the hook before it and the
hook after it, whatever else is shown. -/
theorem filter_test (h : Shown r run tests signs) (hd : tests.Nodup) {t : TestRun} (ht : t ∈ tests)
    {subjects : List Subject} (hs : ∀ x ∈ tests, .test x ∈ subjects ↔ x = t) :
    ∃ before after state, signs.filter (Sign.isAbout subjects) =
      r.signs before (.beforeTest t) ++ r.signs after (.afterTest t state) := by
  induction h with
  | nil => exact nomatch ht
  | asked answer _ ih => exact ih hd ht hs
  | @test inner tests body rest x before after state hx hbody hrest ihb ihr =>
    simp only [List.nodup_cons, List.nodup_append, List.mem_append, not_or] at hd
    obtain ⟨⟨hxi, hxt⟩, hdi, hdt, hdis⟩ := hd
    simp only [List.mem_cons, List.mem_append, forall_eq_or_imp] at hs ht
    have hother {l : List TestRun} {shown : List (Sign ε)} (hl : Shown r run l shown)
        (hsub : ∀ y ∈ l, y ∈ inner ∨ y ∈ tests) (hn : t ∉ l) :
        shown.filter (Sign.isAbout subjects) = [] := by
      refine hl.filter_of_notMem fun y hy hm => hn ?_
      exact (hs.2 y (hsub y hy)).mp hm ▸ hy
    rcases ht with rfl | ht | ht
    · refine ⟨before, after, state, filter_self (hs.1.mpr rfl) before after state ?_ ?_⟩
      · exact hother hbody (fun y hy => .inl hy) hxi
      · exact hother hrest (fun y hy => .inr hy) hxt
    · have hne : Subject.test x ∉ subjects := fun hm => hxi (hs.1.mp hm ▸ ht)
      obtain ⟨b, a, st, he⟩ := ihb hdi ht fun y hy => hs.2 y (.inl hy)
      refine ⟨b, a, st, ?_⟩
      rw [filter_other hne, he, hother hrest (fun y hy => .inr hy) fun hr => hdis _ ht _ hr rfl,
        List.append_nil]
    · have hne : Subject.test x ∉ subjects := fun hm => hxt (hs.1.mp hm ▸ ht)
      obtain ⟨b, a, st, he⟩ := ihr hdt ht fun y hy => hs.2 y (.inr hy)
      refine ⟨b, a, st, ?_⟩
      rw [filter_other hne, he, hother hbody (fun y hy => .inl hy) fun hb => hdis _ hb _ ht rfl,
        List.nil_append]

end Script.Shown

/-- Whatever a task sends for a hook is made of it. -/
theorem Script.sent_of_brackets {r : Reporter ε} {run : TaskRun} {tests : List TestRun}
    {signs shown last : List (Sign ε)} {before : Timestamp}
    (hs : signs = r.signs before (.beforeTask run) ++ (shown ++ last))
    (hshown : Shown r run tests shown)
    (hl : (∃ after state, last = r.signs after (.afterTask run state)) ∨ last = [])
    {hook : Hook} {e : ε} (he : .sent hook e ∈ signs) : ∃ now, e ∈ r.emit now hook := by
  rw [hs] at he
  simp only [List.mem_append] at he
  rcases he with he | he | he
  · exact ⟨_, Reporter.mem_emit_of_sent he⟩
  · exact hshown.sent he
  · rcases hl with ⟨after, state, rfl⟩ | rfl
    · exact ⟨_, Reporter.mem_emit_of_sent he⟩
    · exact nomatch he

/-! ## 3. Tasks that came to their ends -/

/-- What the worker of a run shows in the end: the hook after the task, or nothing if the error of
its action cannot be rendered. -/
def EndsTask (r : Reporter ε) (registry : Registry) (run : TaskRun) (last : List (Sign ε)) : Prop :=
  (∃ after state, last = r.signs after (.afterTask run state)) ∨
    last = [] ∧ ∃ task, registry.get? run.path = some task ∧ ¬ task.action.Renderable

/-- What the worker of a run showed, from the beginning of its script to the end. -/
structure Ran (r : Reporter ε) (registry : Registry) (build : BuildRun) (run : TaskRun)
    (own : List (Sign ε)) : Prop where
  build : run.build = build
  brackets : ∃ before tests shown last, own = r.signs before (.beforeTask run) ++ (shown ++ last) ∧
    Script.Shown r run tests shown ∧ EndsTask r registry run last

/-- The trace of tasks of a build that all came to their ends. -/
structure Completed (r : Reporter ε) (registry : Registry) (build : BuildRun)
    (trace : List (Sign ε)) : Prop where
  stamps : (trace.filterMap Sign.stamp?).Nodup
  signs : ∀ sign ∈ trace, ∀ subject, sign.subject? = some subject →
    ∃ run, subject.task? = some run ∧ .handed run ∈ trace
  runs : ∀ run, .handed run ∈ trace →
    Ran r registry build run (trace.filter fun sign => decide (sign.worker? = some run))

theorem EndsTask.subject {r : Reporter ε} {registry : Registry} {run : TaskRun}
    {last : List (Sign ε)} (h : EndsTask r registry run last) {sign : Sign ε} (hs : sign ∈ last) :
    sign.subject? = some (.task run) := by
  rcases h with ⟨after, state, rfl⟩ | ⟨rfl, -⟩
  · exact Reporter.subject_of_mem_signs hs
  · exact nomatch hs

theorem EndsTask.filter {r : Reporter ε} {registry : Registry} {run : TaskRun}
    {last : List (Sign ε)} (h : EndsTask r registry run last) {subjects : List Subject}
    (hm : .task run ∈ subjects) : last.filter (Sign.isAbout subjects) = last :=
  Sign.filter_isAbout (fun _ => h.subject) hm

theorem EndsTask.filter_of_notMem {r : Reporter ε} {registry : Registry} {run : TaskRun}
    {last : List (Sign ε)} (h : EndsTask r registry run last) {subjects : List Subject}
    (hm : .task run ∉ subjects) : last.filter (Sign.isAbout subjects) = [] :=
  Sign.filter_isAbout_of_notMem (fun _ => h.subject) hm

/-- Members of a list that have the same value are the same, if no value comes twice. -/
theorem inj_of_nodup_filterMap {α β : Type} {f : α → Option β} {l : List α}
    (h : (l.filterMap f).Nodup) {a b : α} {v : β} (ha : a ∈ l) (hb : b ∈ l) (hfa : f a = some v)
    (hfb : f b = some v) : a = b := by
  induction l with
  | nil => exact nomatch ha
  | cons x l ih =>
    have hin {y : α} (hy : y ∈ l) (hfy : f y = some v) : v ∈ l.filterMap f :=
      List.mem_filterMap.mpr ⟨y, hy, hfy⟩
    rcases List.mem_cons.mp ha with rfl | hal <;> rcases List.mem_cons.mp hb with rfl | hbl
    · rfl
    · rw [List.filterMap_cons_some hfa] at h
      exact absurd (hin hbl hfb) (List.nodup_cons.mp h).1
    · rw [List.filterMap_cons_some hfb] at h
      exact absurd (hin hal hfa) (List.nodup_cons.mp h).1
    · refine ih ?_ hal hbl
      cases hx : f x with
      | none => rwa [List.filterMap_cons_none hx] at h
      | some w =>
        rw [List.filterMap_cons_some hx] at h
        exact (List.nodup_cons.mp h).2

namespace Completed

variable {r : Reporter ε} {registry : Registry} {build : BuildRun} {trace : List (Sign ε)}

/-- A build in which no task was handed over. -/
theorem nil : Completed r registry build ([] : List (Sign ε)) := by
  constructor <;> simp

/-! ## 4. What there is of a run -/

/-- The signs about subjects that belong to one run are among those of the run. -/
theorem filter_own (run : TaskRun) {subjects : List Subject}
    (h : ∀ subject ∈ subjects, subject.task? = some run) :
    trace.filter (Sign.isAbout subjects) =
      (trace.filter fun sign => decide (sign.worker? = some run)).filter (Sign.isAbout subjects) := by
  rw [List.filter_filter]
  refine List.filter_congr ?_
  intro sign _
  rw [Bool.eq_iff_iff, Bool.and_eq_true]
  refine ⟨fun ha => ⟨ha, ?_⟩, And.left⟩
  obtain ⟨subject, hm, hs⟩ := Sign.isAbout_iff.mp ha
  exact decide_eq_true ((Sign.worker?_of_subject? hs).trans (h subject hm))

/-- The run of a subject that there is a sign of was handed over. -/
theorem handed (h : Completed r registry build trace) {sign : Sign ε} (hs : sign ∈ trace)
    {subject : Subject} (hsub : sign.subject? = some subject) {run : TaskRun}
    (hr : subject.task? = some run) : .handed run ∈ trace := by
  obtain ⟨other, ho, hh⟩ := h.signs sign hs subject hsub
  obtain rfl : other = run := Option.some.inj (ho.symm.trans hr)
  exact hh

/-- **Of a task there are the hook before it and the hook after it**, the latter unless its error
cannot be rendered. -/
theorem filter_task (h : Completed r registry build trace) {run : TaskRun}
    (hr : .handed run ∈ trace) : ∃ before last,
      trace.filter (Sign.isAbout [.task run]) = r.signs before (.beforeTask run) ++ last ∧
      EndsTask r registry run last := by
  obtain ⟨before, tests, shown, last, ho, hs, hl⟩ := (h.runs run hr).brackets
  refine ⟨before, last, ?_, hl⟩
  rw [filter_own run (by simp [Subject.task?]), ho, List.filter_append, List.filter_append,
    Reporter.filter_signs (by simp [Hook.subject]), hs.filter_of_notMem (by simp),
    hl.filter (by simp), List.nil_append]

/-- A run that was handed over shows the hook before its task. -/
theorem began (h : Completed r registry build trace) {run : TaskRun}
    (hr : .handed run ∈ trace) : .called (.beforeTask run) ∈ trace := by
  obtain ⟨before, tests, shown, last, ho, -⟩ := (h.runs run hr).brackets
  have hm : .called (.beforeTask run) ∈ trace.filter fun sign =>
      decide (sign.worker? = some run) := by
    rw [ho]
    simp [Reporter.signs]
  exact (List.mem_filter.mp hm).1

/-- Tests of a run have different stamps, and are different. -/
theorem tests_nodup (h : Completed r registry build trace) {run : TaskRun}
    {before shown last : List (Sign ε)} {tests : List TestRun}
    (ho : (trace.filter fun sign => decide (sign.worker? = some run)) = before ++ (shown ++ last))
    (hs : Script.Shown r run tests shown) : (tests.map (·.stamp)).Nodup := by
  have hsub : (shown.filterMap Sign.stamp?).Sublist (trace.filterMap Sign.stamp?) := by
    refine List.Sublist.filterMap _ (List.Sublist.trans ?_ (List.filter_sublist (p := fun sign =>
      decide (sign.worker? = some run))))
    rw [ho]
    exact (List.sublist_append_left _ _).trans (List.sublist_append_right _ _)
  rw [← hs.stamps]
  exact hsub.nodup h.stamps

/-- A test that there is a sign of is one of those of its task. -/
theorem mem_tests {run : TaskRun} {before : Timestamp} {tests : List TestRun}
    {shown last : List (Sign ε)}
    (ho : (trace.filter fun sign => decide (sign.worker? = some run)) =
      r.signs before (.beforeTask run) ++ (shown ++ last))
    (hshown : Script.Shown r run tests shown) (hl : EndsTask r registry run last)
    {sign : Sign ε} (hs : sign ∈ trace) {x : TestRun} (hx : sign.subject? = some (.test x))
    (hr : x.task = run) : x ∈ tests := by
  have hm : sign ∈ trace.filter fun sign => decide (sign.worker? = some run) :=
    List.mem_filter.mpr ⟨hs, decide_eq_true ((Sign.worker?_of_subject? hx).trans (congrArg some hr))⟩
  rw [ho] at hm
  simp only [List.mem_append] at hm
  rcases hm with hm | hm | hm
  · exact nomatch hx.symm.trans (Reporter.subject_of_mem_signs hm)
  · obtain ⟨t, ht, he⟩ := hshown.subject hm hx
    cases he
    exact ht
  · exact nomatch hx.symm.trans (hl.subject hm)

/-- A test that there is a sign of took its stamp. -/
theorem stamped (h : Completed r registry build trace) {sign : Sign ε} (hs : sign ∈ trace)
    {x : TestRun} (hx : sign.subject? = some (.test x)) : .stamped x.task x.stamp ∈ trace := by
  obtain ⟨before, tests, shown, last, ho, hshown, hl⟩ := (h.runs _ (h.handed hs hx rfl)).brackets
  have hm : .stamped x.task x.stamp ∈ trace.filter fun sign =>
      decide (sign.worker? = some x.task) := by
    rw [ho]
    simp [hshown.stamped (mem_tests ho hshown hl hs hx rfl)]
  exact (List.mem_filter.mp hm).1

/-- **Of a test there are its hooks, between those of its task.** -/
theorem filter_test (h : Completed r registry build trace) {sign : Sign ε} (hs : sign ∈ trace)
    {x : TestRun} (hsub : sign.subject? = some (.test x)) : ∃ before b a state last,
      trace.filter (Sign.isAbout [.task x.task, .test x]) =
        r.signs before (.beforeTask x.task) ++
          (r.signs b (.beforeTest x) ++ r.signs a (.afterTest x state) ++ last) ∧
      trace.filter (Sign.isAbout [.test x]) =
        r.signs b (.beforeTest x) ++ r.signs a (.afterTest x state) ∧
      EndsTask r registry x.task last := by
  obtain ⟨before, tests, shown, last, ho, hshown, hl⟩ := (h.runs _ (h.handed hs hsub rfl)).brackets
  have ht := mem_tests ho hshown hl hs hsub rfl
  have hd : tests.Nodup := .of_map _ (h.tests_nodup ho hshown)
  have hx : ∀ y ∈ tests, Subject.test y ∈ [Subject.test x] ↔ y = x := by simp
  obtain ⟨b, a, state, hf⟩ := hshown.filter_test hd ht hx
  have hf' : shown.filter (Sign.isAbout [.task x.task, .test x]) =
      shown.filter (Sign.isAbout [.test x]) := by
    refine List.filter_congr ?_
    intro sign hm
    rw [Bool.eq_iff_iff, Sign.isAbout_iff, Sign.isAbout_iff]
    constructor
    · rintro ⟨subject, hsub, he⟩
      obtain ⟨t, -, rfl⟩ := hshown.subject hm he
      exact ⟨_, by simpa using hsub, he⟩
    · rintro ⟨subject, hsub, he⟩
      exact ⟨subject, List.mem_cons_of_mem _ hsub, he⟩
  refine ⟨before, b, a, state, last, ?_, ?_, hl⟩
  · rw [filter_own x.task (by simp [Subject.task?]), ho, List.filter_append,
      List.filter_append, Reporter.filter_signs (by simp [Hook.subject]), hf', hf,
      hl.filter (by simp)]
  · rw [filter_own x.task (by simp [Subject.task?]), ho, List.filter_append,
      List.filter_append, Reporter.filter_signs_of_notMem (by simp [Hook.subject]), hf,
      hl.filter_of_notMem (by simp)]
    simp

/-- Whatever is sent for a hook is made of it. -/
theorem sent (h : Completed r registry build trace) {hook : Hook} {e : ε}
    (he : .sent hook e ∈ trace) : ∃ now, e ∈ r.emit now hook := by
  obtain ⟨run, ht, hh⟩ := h.signs _ he _ rfl
  obtain ⟨before, tests, shown, last, ho, hshown, hl⟩ := (h.runs run hh).brackets
  have hm : .sent hook e ∈ trace.filter fun sign => decide (sign.worker? = some run) :=
    List.mem_filter.mpr ⟨he, decide_eq_true ht⟩
  exact Script.sent_of_brackets ho hshown (hl.imp id And.left) hm

/-! ## 5. Ids -/

theorem stamp_of_ofStamp {kind : OperationKind} {stamp stamp' : Stamp}
    (h : OperationId.ofStamp kind stamp = .ofStamp kind stamp') : stamp = stamp' := by
  injection h with _ h1 h2
  exact congrArg₂ Stamp.mk h1 h2

/-- **Subjects of a trace have ids of their own.** -/
theorem subject_inj (h : Completed r registry build trace) {sign sign' : Sign ε}
    {subject subject' : Subject} (hs : sign ∈ trace) (hs' : sign' ∈ trace)
    (hsub : sign.subject? = some subject) (hsub' : sign'.subject? = some subject')
    (hid : subject.descriptor.id = subject'.descriptor.id) : subject = subject' := by
  obtain ⟨run, hr, hh⟩ := h.signs sign hs subject hsub
  obtain ⟨run', hr', hh'⟩ := h.signs sign' hs' subject' hsub'
  -- the ids tell the kinds and the stamps, and the stamps tell what took them
  cases subject with
  | build b => exact nomatch hr
  | task t =>
    cases subject' with
    | build b' => exact nomatch hr'
    | test x' => exact nomatch hid
    | task t' =>
      cases hr
      cases hr'
      have he : Sign.handed run = (.handed run' : Sign ε) := by
        refine inj_of_nodup_filterMap h.stamps hh hh' rfl (congrArg some ?_)
        exact (stamp_of_ofStamp hid).symm
      exact congrArg Subject.task (Sign.handed.inj he)
  | test x =>
    cases subject' with
    | build b' => exact nomatch hr'
    | task t' => exact nomatch hid
    | test x' =>
      have hst : x.stamp = x'.stamp := stamp_of_ofStamp hid
      have he : Sign.stamped x.task x.stamp = (.stamped x'.task x'.stamp : Sign ε) :=
        inj_of_nodup_filterMap h.stamps (h.stamped hs hsub) (h.stamped hs' hsub') rfl
          (congrArg some hst.symm)
      obtain ⟨before, tests, shown, last, ho, hshown, hl⟩ :=
        (h.runs _ (h.handed hs hsub rfl)).brackets
      have hx := mem_tests ho hshown hl hs hsub rfl
      have hx' := mem_tests ho hshown hl hs' hsub' (Sign.stamped.inj he).1.symm
      exact congrArg Subject.test (List.inj_on_of_nodup_map (h.tests_nodup ho hshown) hx hx' hst)

end Completed

/-! ## 6. Schedules -/

/-- **The trace of a schedule that came to its end.** -/
theorem Schedule.Traced.completed_trace {su : ScheduleSetup ε} {g : Generator} {s : Schedule ε}
    (h : Schedule.Traced su g s) (hw : s.workers = []) (hb : s.stamps.length ≤ UInt64.size) :
    Completed su.reporter su.registry su.build s.trace := by
  refine ⟨?_, ?_, ?_⟩
  · have hn := Generator.nodup_firstStamps (g := g) hb
    rwa [← h.stamps] at hn
  · intro sign hs subject hsub
    rcases h.signs sign hs with ⟨run, rfl⟩ | ⟨answer, rfl⟩ | ⟨run, hwk, hh⟩
    · exact nomatch hsub
    · exact nomatch hsub
    · exact ⟨run, (Sign.worker?_of_subject? hsub).symm.trans hwk, hh⟩
  · intro run hr
    obtain ⟨report, -, ht⟩ := h.completed hw hr
    obtain ⟨task, hg, -, hp⟩ := ht.task
    obtain ⟨-, result, hgiven, -, before, tests, shown, last, ho, hshown, hl⟩ :=
      Script.path_ofTask hp
    refine ⟨ht.build, before, tests, shown, last, ho, hshown, hl.imp ?_ ?_⟩
    · exact fun ⟨after, state, he, _⟩ => ⟨after, state, he⟩
    · rintro ⟨hnil, rfl⟩
      exact ⟨hnil, task, hg, fun hr => hr (Action.mayEnd_of_given hgiven)⟩

end BuildStream
