/-
# Where a listener finds an operation of a build

A task of a build is inside the build, and a test inside its task.  A listener that is told of one
of them finds the operations around it by following references from operation to operation in the
stream, while workers start and end others at the same time.

That it finds the right ones is shown in two steps.  What the engine sends is enclosed: the hooks of
a task and its test stand inside each other, whatever comes between them, and the build starts
before everything and ends after it (`Framed.enclosed`).  Then what the stream finds can be read
off the events (`Stream.ancestors_of_accept`): it is what was sent before of the operations around
(`Framed.lineage`).

A test is an exception where nobody listens to tasks.  Its task was never heard of, so the chain
ends before it starts, and the build is not found either.
-/
import BuildStream.Proofs.Engine.Subjects
import BuildStream.Proofs.Stream.Ancestors

namespace BuildStream

/-! ## 1. The operations around a run -/

namespace Subject

/-- What is found around a run, innermost first, given whether tasks are listened to. -/
def enclosing (tasks : Bool) : Subject → List Descriptor
  | build _ => []
  | task run => [run.build.descriptor]
  | test run => if tasks then [run.task.descriptor, run.task.build.descriptor] else []

/-- How deep inside the build a run is. -/
def depth : Subject → Nat
  | build _ => 0
  | task _ => 1
  | test _ => 2

theorem length_enclosing (s : Subject) : (s.enclosing true).length = s.depth := by cases s <;> rfl

theorem parent_ne_id (s : Subject) : s.descriptor.parent ≠ some s.descriptor.id := by
  cases s with
  | build b => exact fun h => nomatch h
  | task t => exact fun h => nomatch h
  | test x => exact fun h => nomatch h

end Subject

/-! ## 2. What was heard so far -/

theorem Event.mark?_of_isBuildStart {e : Event} (h : e.isBuildStart = true) :
    ∃ d, e.mark? = some ⟨d, true⟩ ∧ d.kind = .build := by
  cases e with
  | status e => exact nomatch h
  | progress e =>
    obtain ⟨time, d, progress⟩ := e
    cases progress with
    | started => exact ⟨d, rfl, by simpa [isBuildStart] using h⟩
    | finished r => exact nomatch h

theorem Event.isBuildFinish_of_mark? {e : Event} {d : Descriptor} (h : e.mark? = some ⟨d, false⟩)
    (hk : d.kind = .build) : e.isBuildFinish = true := by
  cases e with
  | status e => exact nomatch h
  | progress e =>
    obtain ⟨time, d', progress⟩ := e
    cases progress with
    | started => exact nomatch h
    | finished r =>
      obtain rfl : d' = d := congrArg Mark.descriptor (Option.some.inj h)
      simpa [isBuildFinish] using hk

/-- Marks of one id are among those of several. -/
theorem Mark.ofId_eq_filter {ids : List OperationId} {id : OperationId} (h : id ∈ ids)
    (events : List Event) :
    Mark.ofId id events = ((events.filterMap Event.mark?).filter fun m =>
      decide (m.descriptor.id ∈ ids)).filter fun m => decide (m.descriptor.id = id) := by
  rw [Mark.ofId, List.filter_filter]
  refine List.filter_congr ?_
  intro m _
  by_cases hm : m.descriptor.id = id
  · simp [hm, h]
  · simp [hm]

/-- The part of a list up to the first of two neighbours, by what has to be left of it. -/
theorem eq_pair_of_filter {α : Type} {p : α → Bool} {a b c : α} {l before after : List α}
    (h : before ++ after = a :: b :: c :: l) (ha : p a = false) (hb : p b = true) (hc : p c = true)
    {d : α} (hf : before.filter p = [d]) : before = [a, b] := by
  match before, h, hf with
  | [], _, hf => exact nomatch hf
  | [x], h, hf =>
    obtain rfl : x = a := (List.cons.inj h).1
    simp [ha] at hf
  | [x, y], h, _ =>
    obtain ⟨rfl, hy⟩ := List.cons.inj h
    obtain ⟨rfl, -⟩ := List.cons.inj hy
    rfl
  | x :: y :: z :: rest, h, hf =>
    obtain ⟨rfl, hy⟩ := List.cons.inj h
    obtain ⟨rfl, hz⟩ := List.cons.inj hy
    obtain ⟨rfl, -⟩ := List.cons.inj hz
    simp [ha, hb, hc] at hf

namespace Framed

variable {request : Request} {start : Timestamp} {registry : Registry} {build : BuildRun}
  {inner trace : List (Sign Event)} {seen rest : List Event}

/-- The task of a run belongs to the build. -/
theorem task_build (h : Framed (Engine.reporter request start) registry build inner trace)
    {sign : Sign Event} (hs : sign ∈ trace) {subject : Subject}
    (hsub : sign.subject? = some subject) {run : TaskRun} (hr : subject.task? = some run) :
    run.build = build :=
  (h.completed.runs run (h.completed.handed (h.mem_inner hs hsub hr) hsub hr)).build

/-- The build is the only run that has the kind of one. -/
theorem eq_build_of_kind (h : Framed (Engine.reporter request start) registry build inner trace)
    {sign : Sign Event} (hs : sign ∈ trace) {subject : Subject}
    (hsub : sign.subject? = some subject) (hk : subject.descriptor.kind = .build) :
    subject = .build build := by
  cases subject with
  | build b => rw [h.build_eq hs hsub]
  | task t => exact nomatch hk
  | test x => exact nomatch hk

theorem pair_build (h : Framed (Engine.reporter request start) registry build inner trace) :
    Mark.ofId build.id (trace.filterMap Sign.sent?) = Mark.pair build.descriptor := by
  obtain ⟨sign, hs, hsub⟩ := h.build_mem
  obtain ⟨began, ended, state, hb⟩ := h.filter_build
  refine (h.ofId_eq hs hsub).trans ?_
  rw [hb [], Sign.filter_isAbout_nil, List.nil_append, Sign.marks_append, Sign.marks_signs,
    Sign.marks_signs]
  rfl

/-- **The build is in flight** from the first event to the last. -/
theorem ofId_build (h : Framed (Engine.reporter request start) registry build inner trace)
    (hev : trace.filterMap Sign.sent? = seen ++ rest) (hseen : seen ≠ []) (hrest : rest ≠ []) :
    Mark.ofId build.id seen = [⟨build.descriptor, true⟩] := by
  have ho : Orderly (seen ++ rest) := hev ▸ h.orderly
  have hall : Mark.ofId build.id seen ++ Mark.ofId build.id rest =
      [⟨build.descriptor, true⟩, ⟨build.descriptor, false⟩] := by
    rw [← Mark.ofId_append, ← hev, h.pair_build]
    rfl
  have hstart : Mark.ofId build.id seen ≠ [] := by
    obtain ⟨e, others, rfl⟩ := List.exists_cons_of_ne_nil hseen
    obtain ⟨first, middle, finish, hf, hb, -⟩ := ho.frame
    obtain rfl : e = first := (List.cons.inj hf).1
    obtain ⟨d, hm, hk⟩ := Event.mark?_of_isBuildStart hb
    obtain ⟨hook, hc, hd⟩ := h.hook_of_mark (m := ⟨d, true⟩)
      (List.mem_filterMap.mpr ⟨e, hev ▸ by simp, hm⟩)
    obtain rfl : d = hook.subject.descriptor := congrArg Mark.descriptor hd
    have hsub := h.eq_build_of_kind hc rfl hk
    have hid : hook.subject.descriptor.id = build.id := by rw [hsub]; rfl
    rw [Mark.ofId_cons_of_mark hm hid]
    exact List.cons_ne_nil _ _
  have hfinish : Mark.mk build.descriptor false ∉ Mark.ofId build.id seen := by
    intro hm
    obtain ⟨e, he, hmark⟩ := List.mem_filterMap.mp (Mark.mem_ofId.mp hm).1
    obtain ⟨before, after, rfl⟩ := List.append_of_mem he
    have hcut : before ++ e :: after ++ rest = before ++ e :: (after ++ rest) := by simp
    have hnil := (hcut ▸ ho).isBuildFinish_of_split.mp (Event.isBuildFinish_of_mark? hmark rfl)
    exact hrest (List.append_eq_nil_iff.mp hnil).2
  cases hms : Mark.ofId build.id seen with
  | nil => exact absurd hms hstart
  | cons a ms =>
    rw [hms, List.cons_append, List.cons.injEq] at hall
    cases ms with
    | nil => rw [hall.1]
    | cons b ms =>
      rw [List.cons_append, List.cons.injEq] at hall
      exact absurd (by simp [hms, hall.2.1]) hfinish

/-- Nothing is heard of a run of a kind that nobody listens to. -/
theorem ofId_of_not_wants (h : Framed (Engine.reporter request start) registry build inner trace)
    {sign : Sign Event} (hs : sign ∈ trace) {subject : Subject}
    (hsub : sign.subject? = some subject)
    (hw : request.subscriptions.wants subject.descriptor.kind = false) :
    Mark.ofId subject.descriptor.id (trace.filterMap Sign.sent?) = [] := by
  obtain ⟨now, last, hf, hl⟩ := h.filter_subject hs hsub
  rw [h.ofId_eq hs hsub, hf, Sign.marks_append, Sign.marks_signs, subject.subject_before, hw]
  rcases hl with ⟨after, hook, rfl, rfl, -⟩ | ⟨rfl, -⟩
  · rw [Sign.marks_signs, hw]
    rfl
  · rfl

/-- A run of a kind that somebody listens to is heard of. -/
theorem ofId_of_wants (h : Framed (Engine.reporter request start) registry build inner trace)
    {sign : Sign Event} (hs : sign ∈ trace) {subject : Subject}
    (hsub : sign.subject? = some subject)
    (hw : request.subscriptions.wants subject.descriptor.kind = true) :
    Mark.ofId subject.descriptor.id (trace.filterMap Sign.sent?) ≠ [] := by
  obtain ⟨now, last, hf, -⟩ := h.filter_subject hs hsub
  rw [h.ofId_eq hs hsub, hf, Sign.marks_append, Sign.marks_signs, subject.subject_before, if_pos hw]
  exact List.cons_ne_nil _ _

/-- The marks of a test stand inside those of its task. -/
theorem marks_test (h : Framed (Engine.reporter request start) registry build inner trace)
    (ht : request.subscriptions.task = true) (hx : request.subscriptions.test = true)
    {sign : Sign Event} (hs : sign ∈ trace) {x : TestRun}
    (hsub : sign.subject? = some (.test x)) :
    ∃ more, (Sign.marks trace).filter (fun m => decide (m.descriptor.id ∈ [x.task.id, x.id])) =
      ⟨x.task.descriptor, true⟩ :: ⟨x.descriptor, true⟩ :: ⟨x.descriptor, false⟩ :: more := by
  have hsubjects : ∀ subject ∈ [Subject.task x.task, .test x],
      ∃ sign ∈ trace, sign.subject? = some subject := by
    simp only [List.mem_cons, List.not_mem_nil, or_false, forall_eq_or_imp, forall_eq]
    exact ⟨⟨_, h.began hs hsub rfl, rfl⟩, sign, hs, hsub⟩
  have hall : (Sign.marks trace).filter (fun m => decide (m.descriptor.id ∈ [x.task.id, x.id])) =
      Sign.marks (trace.filter (Sign.isAbout [.task x.task, .test x])) :=
    Sign.filter_marks (fun _ _ => h.sent) fun _ _ => h.id_mem_iff hsubjects
  obtain ⟨before, b, a, state, last, hpair, -, -⟩ :=
    h.completed.filter_test (h.mem_inner hs hsub rfl) hsub
  have htask : request.subscriptions.wants (Hook.beforeTask x.task).subject.descriptor.kind = true :=
    ht
  have htest : request.subscriptions.wants (Hook.beforeTest x).subject.descriptor.kind = true := hx
  have htest' : request.subscriptions.wants
      (Hook.afterTest x state).subject.descriptor.kind = true := hx
  rw [hall, h.filter_inner (by simp), hpair]
  simp only [Sign.marks_append, Sign.marks_signs]
  rw [if_pos htask, if_pos htest, if_pos htest']
  exact ⟨_, rfl⟩

/-- **A task is in flight** while its test is, if it was heard of. -/
theorem ofId_task (h : Framed (Engine.reporter request start) registry build inner trace)
    (hev : trace.filterMap Sign.sent? = seen ++ rest) (ht : request.subscriptions.task = true)
    {sign : Sign Event} (hs : sign ∈ trace) {x : TestRun} (hsub : sign.subject? = some (.test x))
    (hx : Mark.ofId x.id seen = [⟨x.descriptor, true⟩]) :
    Mark.ofId x.task.id seen = [⟨x.task.descriptor, true⟩] := by
  have hne : x.task.id ≠ x.id := fun hid => nomatch hid
  have htest : request.subscriptions.test = true := by
    by_contra hno
    have hnone : Mark.ofId x.id (trace.filterMap Sign.sent?) = [] :=
      h.ofId_of_not_wants hs hsub (Bool.eq_false_iff.mpr hno)
    rw [hev, Mark.ofId_append, hx] at hnone
    exact absurd hnone (List.cons_ne_nil _ _)
  obtain ⟨more, hall⟩ := h.marks_test ht htest hs hsub
  rw [Sign.marks, hev, List.filterMap_append, List.filter_append] at hall
  -- of the two, the test has started and not finished
  have hcut : (seen.filterMap Event.mark?).filter
      (fun m => decide (m.descriptor.id ∈ [x.task.id, x.id])) =
      [⟨x.task.descriptor, true⟩, ⟨x.descriptor, true⟩] := by
    refine eq_pair_of_filter (p := fun m => decide (m.descriptor.id = x.id))
      (d := ⟨x.descriptor, true⟩) hall (decide_eq_false hne) (decide_eq_true rfl)
      (decide_eq_true rfl) ?_
    have hmem : x.id ∈ [x.task.id, x.id] := by simp
    rw [← Mark.ofId_eq_filter hmem, hx]
  have hdrop : decide (x.descriptor.id = x.task.id) = false := decide_eq_false (Ne.symm hne)
  have hkeep : decide (x.task.descriptor.id = x.task.id) = true := decide_eq_true rfl
  have hmem : x.task.id ∈ [x.task.id, x.id] := List.mem_cons_self
  rw [Mark.ofId_eq_filter hmem, hcut]
  simp [hdrop, hkeep]

/-- What is heard of a run has its descriptor. -/
theorem descriptor_of_ofId (h : Framed (Engine.reporter request start) registry build inner trace)
    (hev : trace.filterMap Sign.sent? = seen ++ rest) {sign : Sign Event} (hs : sign ∈ trace)
    {subject : Subject} (hsub : sign.subject? = some subject) {p : Descriptor}
    (hp : Mark.ofId subject.descriptor.id seen = [⟨p, true⟩]) : p = subject.descriptor := by
  obtain ⟨hm, hid⟩ := Mark.mem_ofId.mp (hp ▸ List.mem_singleton_self _)
  obtain ⟨hook, hc, hmark⟩ := h.hook_of_mark (m := ⟨p, true⟩) (by
    rw [hev, List.filterMap_append]
    exact List.mem_append_left _ hm)
  obtain rfl : p = hook.subject.descriptor := congrArg Mark.descriptor hmark
  rw [h.subject_inj hc hs rfl hsub hid]

/-! ## 3. What is sent is enclosed -/

/-- The run that a start or finish is of. -/
theorem subject_of_progress (h : Framed (Engine.reporter request start) registry build inner trace)
    {e : ProgressEvent} (he : .progress e ∈ trace.filterMap Sign.sent?) :
    ∃ hook, .called hook ∈ trace ∧ Event.mark? (.progress e) = some hook.mark ∧
      e.descriptor = hook.subject.descriptor := by
  obtain ⟨hook, hc, hm⟩ := h.hook_of_mark (List.mem_filterMap.mpr ⟨_, he, rfl⟩)
  exact ⟨hook, hc, congrArg some hm, congrArg Mark.descriptor hm⟩

/-- **What is sent of a build is enclosed**, whatever the order in which workers take their
steps. -/
theorem enclosed (h : Framed (Engine.reporter request start) registry build inner trace) :
    Enclosed (trace.filterMap Sign.sent?) where
  apart e he := by
    obtain ⟨hook, -, -, hd⟩ := h.subject_of_progress he
    rw [hd]
    exact hook.subject.parent_ne_id
  around seen rest hev hne d id hd hp := by
    have hmark : Mark.mk d true ∈ seen.filterMap Event.mark? :=
      (Mark.mem_ofId.mp (hd ▸ List.mem_singleton_self _)).1
    have hseen : seen ≠ [] := by
      rintro rfl
      exact nomatch hmark
    obtain ⟨hook, hc, hm⟩ := h.hook_of_mark (m := ⟨d, true⟩) (by
      rw [hev, List.filterMap_append]
      exact List.mem_append_left _ hmark)
    obtain rfl : d = hook.subject.descriptor := congrArg Mark.descriptor hm
    have hsub : (Sign.called hook : Sign Event).subject? = some hook.subject := rfl
    generalize hook.subject = subject at hd hp hsub
    cases subject with
    | build b => exact nomatch hp
    | task t =>
      obtain rfl : t.build.id = id := Option.some.inj hp
      rw [h.task_build hc hsub rfl]
      exact .inr ⟨_, h.ofId_build hev hseen hne⟩
    | test x =>
      obtain rfl : x.task.id = id := Option.some.inj hp
      cases ht : request.subscriptions.task with
      | true => exact .inr ⟨_, h.ofId_task hev ht hc hsub hd⟩
      | false => exact .inl (h.ofId_of_not_wants (h.began hc hsub rfl) rfl ht)

/-- **The operations around a run** when it starts or finishes, as they can be read off what was
sent. -/
theorem lineage (h : Framed (Engine.reporter request start) registry build inner trace)
    {e : ProgressEvent} (hev : trace.filterMap Sign.sent? = seen ++ .progress e :: rest)
    (hne : rest ≠ []) {sign : Sign Event} (hs : sign ∈ trace) {subject : Subject}
    (hsub : sign.subject? = some subject) (hd : e.descriptor = subject.descriptor) :
    Lineage (seen ++ [.progress e]) e.descriptor
      (subject.enclosing request.subscriptions.task) := by
  have hcut : trace.filterMap Sign.sent? = (seen ++ [.progress e]) ++ rest := by simpa using hev
  have hbuild : Mark.ofId build.id (seen ++ [.progress e]) = [⟨build.descriptor, true⟩] :=
    h.ofId_build hcut (by simp) hne
  have htask {run : TaskRun} (hr : subject.task? = some run) :
      Lineage (seen ++ [.progress e]) run.descriptor [run.build.descriptor] := by
    rw [h.task_build hs hsub hr]
    exact .inside (congrArg (fun b : BuildRun => some b.id) (h.task_build hs hsub hr)) hbuild
      (.outermost fun _ h => nomatch h)
  rw [hd]
  cases subject with
  | build b => exact .outermost fun _ h => nomatch h
  | task t => exact htask rfl
  | test x =>
    have hbegan := h.began hs hsub rfl
    cases ht : request.subscriptions.task with
    | true =>
      have hparent : e.descriptor.parent = some x.task.id := congrArg Descriptor.parent hd
      obtain ⟨p, hp⟩ := (h.enclosed.above h.orderly hev hne hparent).resolve_left
        (h.ofId_of_wants hbegan rfl ht)
      obtain rfl : p = x.task.descriptor := h.descriptor_of_ofId hcut hbegan rfl hp
      exact .inside rfl hp (htask rfl)
    | false =>
      refine .outermost fun id hid => ?_
      obtain rfl : x.task.id = id := Option.some.inj hid
      have hnone : Mark.ofId x.task.id (trace.filterMap Sign.sent?) = [] :=
        h.ofId_of_not_wants hbegan rfl ht
      rw [hcut, Mark.ofId_append] at hnone
      exact (List.append_eq_nil_iff.mp hnone).1

end Framed

/-! ## 4. What a listener finds -/

namespace Framed

variable {request : Request} {start : Timestamp} {registry : Registry} {build : BuildRun}
  {inner trace : List (Sign Event)} {seen rest : List Event} {t : Stream} {notice : Notice}

/-- **What the stream finds** around the run that a start or finish is of. -/
theorem ancestors_of_accept
    (h : Framed (Engine.reporter request start) registry build inner trace)
    {e : ProgressEvent} (hev : trace.filterMap Sign.sent? = seen ++ .progress e :: rest)
    {sign : Sign Event} (hs : sign ∈ trace) {subject : Subject}
    (hsub : sign.subject? = some subject) (hd : e.descriptor = subject.descriptor)
    (ha : (Stream.ofEvents seen).accept (.progress e) = .ok (t, notice)) :
    (t.ancestorsOf notice).map (·.descriptor) =
      subject.enclosing request.subscriptions.task := by
  have ho : Orderly (seen ++ .progress e :: rest) := hev ▸ h.orderly
  by_cases hne : rest = []
  · -- the last event is the finish of the build, and nothing is in flight after it
    have hb := ho.isBuildFinish_of_split.mpr hne
    obtain ⟨m, hm, hk⟩ := Event.mark?_of_isBuildFinish hb
    obtain rfl := Option.some.inj hm
    have hsubject := h.eq_build_of_kind hs hsub (hd ▸ hk)
    have hopens := (Stream.linked_ofEvents h.orderly h.enclosed hev (by simp)).opens
    have hflight := ((Stream.takes_of_accept hopens ho.paired ha).closes hb).2
    rw [Stream.ancestorsOf_eq_nil (List.length_eq_zero_iff.mp hflight), hsubject]
    rfl
  · exact Stream.ancestors_of_accept h.orderly h.enclosed hev hne (h.lineage hev hne hs hsub hd) ha

end Framed

namespace Engine

/-- A start or finish that a build sends is that of a run whose hook was called. -/
theorem hook_of_event {e : Engine} {request : Request} {g : Generator} {requested : Bool}
    {start : Timestamp} {choices : List Choice}
    (hb : (e.buildAlong choices request g requested start).stamps.length ≤ UInt64.size)
    {event : ProgressEvent}
    (he : .progress event ∈ (e.buildAlong choices request g requested start).events) :
    ∃ hook, .called hook ∈ (e.buildAlong choices request g requested start).trace ∧
      Event.mark? (.progress event) = some hook.mark ∧
      event.descriptor = hook.subject.descriptor := by
  rcases framed_cases hb with ⟨summary, inner, -, h⟩ | ⟨-, ht⟩
  · exact h.subject_of_progress he
  · rw [events_of_opening ht] at he
    have hmark : Mark.mk event.descriptor event.progress.isStart = _ :=
      Hook.mark_of_mem_events he rfl
    have hcalled : .beforeBuild (runOf g) ∈
        (e.buildAlong choices request g requested start).hooks := by
      rw [hooks_of_opening ht]
      exact List.mem_singleton_self _
    exact ⟨_, mem_trace_of_mem_hooks hcalled, congrArg some hmark, congrArg Mark.descriptor hmark⟩

/-- **What a listener finds around the operation it is told of**, in whatever order the workers take
their steps and whatever the listeners do.

Every start and every finish that a listener is told of is that of a run whose hook was called.
Unless a listener that was told of it before has closed the stream, the listener finds around it
exactly: nothing around the build, the build around a task, and the task and the build around a
test, or nothing at all if nobody listens to tasks.  So where somebody does, the number of what is
found is 0 for the build, 1 for a task and 2 for a test. -/
theorem buildAlong_ancestors (e : Engine) (request : Request) (g : Generator) (requested : Bool)
    (start : Timestamp) (choices : List Choice) (past : List Call)
    (hb : (e.buildAlong choices request g requested start).stamps.length ≤ UInt64.size) :
    let result := e.buildAlong choices request g requested start
    let tasks := request.subscriptions.task
    ∀ o ∈ (Stream.feedAll request.listeners past {} result.events).2,
      ∀ earlier c later, o.calls = earlier ++ c :: later →
        ∀ m, c.notice.mark? = some m → ∃ hook ∈ result.hooks, m = hook.mark ∧
          ((∀ other ∈ earlier, other.closes = false) →
            c.ancestors.map (·.descriptor) = hook.subject.enclosing tasks ∧
              (tasks = true → c.ancestors.length = hook.subject.depth)) := by
  intro result tasks o ho earlier c later hc m hm
  -- a build that breaks down sends a beginning of what a build sends that comes to its finish
  obtain ⟨inner, more, h⟩ := buildAlong_framed hb
  obtain ⟨before, event, after, notice, hev, ha, hsight⟩ := Stream.sight_of_call ho hc
  have hall : (result.trace ++ more).filterMap Sign.sent? =
      before ++ event :: (after ++ more.filterMap Sign.sent?) := by
    have hsent : result.trace.filterMap Sign.sent? = before ++ event :: after := hev
    rw [List.filterMap_append, hsent, List.append_assoc, List.cons_append]
  have ho : Orderly (before ++ event :: (after ++ more.filterMap Sign.sent?)) := hall ▸ h.orderly
  have hs := Stream.linked_ofEvents h.orderly h.enclosed hall (by simp)
  have ht := Stream.takes_of_accept hs.opens ho.paired ha
  have hnotice : c.notice = notice := congrArg Sight.notice hsight
  rw [hnotice, ht.mark] at hm
  cases event with
  | status event => exact nomatch hm
  | progress event =>
    have hmem : .progress event ∈ result.events := by
      rw [hev]
      simp
    obtain ⟨hook, hcalled, hmark, hd⟩ := hook_of_event hb hmem
    refine ⟨hook, Sign.mem_hooks.mpr hcalled, Option.some.inj (hm.symm.trans hmark), fun hopen => ?_⟩
    have hunclosed : earlier.any (·.closes) = false := by simpa using hopen
    rw [Stream.afterCalls, hunclosed] at hsight
    have hancestors : c.ancestors = Stream.ancestorsOf _ notice := congrArg Sight.ancestors hsight
    have hfound := h.ancestors_of_accept hall (List.mem_append_left _ hcalled) rfl hd ha
    rw [hancestors]
    refine ⟨hfound, fun htasks => ?_⟩
    have hlength := congrArg List.length hfound
    have hlistened : request.subscriptions.task = true := htasks
    rwa [List.length_map, hlistened, Subject.length_enclosing] at hlength

/-- The listener that is told of the start of the test finds the task and the build. -/
theorem ancestors_sample :
    Sample.result.stamps.length ≤ UInt64.size ∧ Sample.request.subscriptions.task = true ∧
      ∃ o ∈ (Stream.feedAll Sample.request.listeners [] {} Sample.result.events).2,
        ∃ c, o.calls = [c] ∧ c.notice.mark? = some ⟨Sample.test.descriptor, true⟩ ∧
          ∃ hook ∈ Sample.result.hooks, Mark.mk Sample.test.descriptor true = hook.mark ∧
            c.ancestors.length = hook.subject.depth ∧ hook.subject.depth = 2 := by
  have hb : Sample.result.stamps.length ≤ UInt64.size := by
    rw [Sample.result_eq]
    decide
  have hc : ∃ o ∈ (Stream.feedAll Sample.request.listeners [] {} Sample.result.events).2,
      ∃ c, o.calls = [c] ∧ c.notice.mark? = some ⟨Sample.test.descriptor, true⟩ := by
    rw [Sample.result_eq]
    exact ⟨_, .tail _ (.tail _ (.head _)), _, rfl, rfl⟩
  obtain ⟨o, ho, c, hc, hm⟩ := hc
  obtain ⟨hook, hh, hmark, hfound⟩ := buildAlong_ancestors Sample.engine Sample.request ⟨1, 1⟩ false
    .epoch Sample.choices [] hb o ho [] c [] hc _ hm
  have hnone : ∀ other ∈ ([] : List Call), other.closes = false := fun _ h => nomatch h
  refine ⟨hb, rfl, o, ho, c, hc, hm, hook, hh, hmark, (hfound hnone).2 rfl, ?_⟩
  have hd : Sample.test.descriptor = hook.subject.descriptor := congrArg Mark.descriptor hmark
  cases hs : hook.subject <;> rw [hs] at hd
  · exact nomatch hd
  · exact nomatch hd
  · rfl

/-! ### A listener that closes the stream -/

namespace Closing

/-- A request with two task listeners, of which the first closes the stream. -/
def request : Request where
  tasks := some [":app"]
  listeners := { task := [⟨"first", fun _ _ => { closes := true }⟩, Sample.listener "second"] }

/-- The build. -/
def result : BuildResult :=
  Sample.engine.buildAlong Sample.choices request ⟨1, 1⟩ false .epoch

theorem result_eq : result =
    Sample.engine.buildBy (fun su s => s.run su Sample.choices) request ⟨1, 1⟩ false .epoch := by
  refine buildAlong_of_isFinished ?_
  intro plan hp
  cases hp
  rfl

end Closing

/-- **A listener may miss the operations around the one it is told of**: the second listener is told
of the start of the task when the first has closed the stream, and does not find the build. -/
theorem ancestors_closing :
    ¬ ∀ (e : Engine) (request : Request) (g : Generator) (requested : Bool) (start : Timestamp)
      (choices : List Choice),
      let result := e.buildAlong choices request g requested start
      result.stamps.length ≤ UInt64.size →
      ∀ c ∈ (Stream.feedAll request.listeners [] {} result.events).2.flatMap (·.calls),
        ∀ m, c.notice.mark? = some m → ∃ hook ∈ result.hooks, m = hook.mark ∧
          c.ancestors.map (·.descriptor) =
            hook.subject.enclosing request.subscriptions.task := by
  intro hall
  have hb : Closing.result.stamps.length ≤ UInt64.size := by
    rw [Closing.result_eq]
    decide
  obtain ⟨c, hc, hm, hnone⟩ : ∃ c ∈ (Stream.feedAll Closing.request.listeners [] {}
      Closing.result.events).2.flatMap (·.calls),
      c.notice.mark? = some ⟨Sample.test.task.descriptor, true⟩ ∧ c.ancestors = [] := by
    rw [Closing.result_eq]
    exact ⟨_, .tail _ (.head _), rfl, rfl⟩
  obtain ⟨hook, -, hmark, hfound⟩ := hall Sample.engine Closing.request ⟨1, 1⟩ false .epoch
    Sample.choices hb c hc _ hm
  have hd : Sample.test.task.descriptor = hook.subject.descriptor := congrArg Mark.descriptor hmark
  rw [hnone] at hfound
  cases hs : hook.subject <;> rw [hs] at hd hfound
  · exact nomatch hd
  · exact nomatch hfound
  · exact nomatch hd

end Engine

end BuildStream
