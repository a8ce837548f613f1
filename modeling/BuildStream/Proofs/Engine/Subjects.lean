/-
# What a trace shows of one run

The trace of a build shows of the build, of a task and of a test the hook before it and the hook
after it, each with what is sent for it, and nothing else; only a task whose error cannot be
rendered has no hook after it (`Framed.filter_subject`).  The three kinds of runs were treated one
by one where their brackets were found; from here on they are the same.

It follows that what was sent belongs to a hook that was called (`Framed.called_of_sent`), and that
a start or finish that was sent is the mark of such a hook (`Framed.hook_of_mark`).
-/
import BuildStream.Proofs.Engine.Delivery
import BuildStream.Proofs.Schedule.Hooks

namespace BuildStream

/-! ## 1. The hooks of a run -/

/-- The hook before a run. -/
def Subject.before : Subject → Hook
  | build run => .beforeBuild run
  | task run => .beforeTask run
  | test run => .beforeTest run

@[simp] theorem Subject.subject_before (s : Subject) : s.before.subject = s := by cases s <;> rfl

@[simp] theorem Subject.isBefore_before (s : Subject) : s.before.isBefore = true := by
  cases s <;> rfl

/-- A run whose hook after it never comes: a task whose error cannot be rendered. -/
def Subject.Lost (registry : Registry) (s : Subject) : Prop :=
  ∃ run task, s = .task run ∧ registry.get? run.path = some task ∧ ¬ task.action.Renderable

/-- What there is of a run after the hook before it: the hook after it, unless the run is lost. -/
def Subject.Ends {ε : Type} (r : Reporter ε) (registry : Registry) (s : Subject)
    (last : List (Sign ε)) : Prop :=
  (∃ now hook, last = r.signs now hook ∧ hook.subject = s ∧ hook.isBefore = false) ∨
    last = [] ∧ s.Lost registry

theorem EndsTask.ends {ε : Type} {r : Reporter ε} {registry : Registry} {run : TaskRun}
    {last : List (Sign ε)} (h : EndsTask r registry run last) :
    (Subject.task run).Ends r registry last := by
  rcases h with ⟨after, state, rfl⟩ | ⟨rfl, task, hg, hr⟩
  · exact .inl ⟨after, _, rfl, rfl, rfl⟩
  · exact .inr ⟨rfl, run, task, rfl, hg, hr⟩

namespace Framed

variable {r : Reporter Event} {registry : Registry} {build : BuildRun}
  {inner trace : List (Sign Event)}

/-- **Of every run there are the hook before it and the hook after it**, unless the run is lost. -/
theorem filter_subject (h : Framed r registry build inner trace) {sign : Sign Event}
    (hs : sign ∈ trace) {subject : Subject} (hsub : sign.subject? = some subject) :
    ∃ now last, trace.filter (Sign.isAbout [subject]) = r.signs now subject.before ++ last ∧
      subject.Ends r registry last := by
  cases subject with
  | build b =>
    obtain rfl := h.build_eq hs hsub
    obtain ⟨began, ended, state, hb⟩ := h.filter_build
    refine ⟨began, r.signs ended (.afterBuild b state), ?_, .inl ⟨ended, _, rfl, rfl, rfl⟩⟩
    rw [hb [], Sign.filter_isAbout_nil, List.nil_append]
    rfl
  | task t =>
    have hi := h.mem_inner hs hsub rfl
    obtain ⟨before, last, hf, hl⟩ := h.completed.filter_task (h.completed.handed hi hsub rfl)
    exact ⟨before, last, (h.filter_inner (by simp)).trans hf, hl.ends⟩
  | test x =>
    have hi := h.mem_inner hs hsub rfl
    obtain ⟨-, before, after, state, -, -, hf, -⟩ := h.completed.filter_test hi hsub
    exact ⟨before, _, (h.filter_inner (by simp)).trans hf, .inl ⟨after, _, rfl, rfl, rfl⟩⟩

/-- What was sent was sent for a hook that was called. -/
theorem called_of_sent (h : Framed r registry build inner trace) {hook : Hook} {e : Event}
    (he : .sent hook e ∈ trace) : .called hook ∈ trace := by
  have hm : .sent hook e ∈ trace.filter (Sign.isAbout [hook.subject]) :=
    List.mem_filter.mpr ⟨he, Sign.isAbout_iff.mpr ⟨hook.subject, by simp, rfl⟩⟩
  have of_signs {now : Timestamp} {other : Hook} (hsent : .sent hook e ∈ r.signs now other) :
      .called hook ∈ r.signs now other := by
    rcases List.mem_cons.mp hsent with hc | hc
    · exact nomatch hc
    · obtain ⟨_, -, hx⟩ := List.mem_map.mp hc
      cases hx
      exact List.mem_cons_self
  obtain ⟨now, last, hf, hl⟩ := h.filter_subject he rfl
  rw [hf] at hm
  suffices hc : .called hook ∈ trace.filter (Sign.isAbout [hook.subject]) from
    (List.mem_filter.mp hc).1
  rw [hf]
  rcases List.mem_append.mp hm with hm | hm
  · exact List.mem_append_left _ (of_signs hm)
  · rcases hl with ⟨after, other, rfl, -, -⟩ | ⟨rfl, -⟩
    · exact List.mem_append_right _ (of_signs hm)
    · exact nomatch hm

/-- A start or finish that was sent is the mark of a hook. -/
theorem hook_of_mark {request : Request} {start : Timestamp}
    (h : Framed (Engine.reporter request start) registry build inner trace) {m : Mark}
    (hm : m ∈ (trace.filterMap Sign.sent?).filterMap Event.mark?) :
    ∃ hook, .called hook ∈ trace ∧ m = hook.mark := by
  obtain ⟨e, he, hmark⟩ := List.mem_filterMap.mp hm
  obtain ⟨sign, hs, hsent⟩ := List.mem_filterMap.mp he
  obtain ⟨hook, rfl⟩ := Sign.eq_sent hsent
  obtain ⟨now, hemit⟩ := h.sent hs
  exact ⟨hook, h.called_of_sent hs, Hook.mark_of_mem_events hemit hmark⟩

end Framed

end BuildStream
