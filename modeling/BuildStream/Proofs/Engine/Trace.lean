/-
# The trace of a build

A build shows its own hooks, and between them what the schedule of its plan shows, if a plan could
be made at all (`Engine.buildAlong_framed`).  So the hooks of a build stand around those of its
tasks, and those of a task around those of its tests, whatever the order in which the workers took
their steps.  Ids tell the subjects of a whole trace apart (`Framed.subject_inj`).

A build whose schedule cannot start breaks down before it has handed anything over, and nothing is
shown after it was planned (`Engine.BreaksDown`).  What it shows is the beginning of such a trace
(`Engine.framed_opening`), so what is true of beginnings is true of all builds.
-/
import BuildStream.Engine
import BuildStream.Proofs.Brackets

namespace BuildStream

/-! ## 1. Framed traces -/

/-- The trace of a build: its hooks, around what its tasks show. -/
structure Framed (r : Reporter Event) (registry : Registry) (build : BuildRun)
    (inner trace : List (Sign Event)) : Prop where
  completed : Completed r registry build inner
  frame : ∃ start asked ended state, trace = .begun build ::
    (r.signs start (.beforeBuild build) ++
      .asked none asked :: (inner ++ r.signs ended (.afterBuild build state)))

namespace Framed

variable {r : Reporter Event} {registry : Registry} {build : BuildRun}
  {inner trace : List (Sign Event)}

/-- A sign of a trace is one of the build's own hooks, or one of its tasks. -/
theorem subject_cases (h : Framed r registry build inner trace) {sign : Sign Event}
    (hs : sign ∈ trace) {subject : Subject} (hsub : sign.subject? = some subject) :
    subject = .build build ∨ sign ∈ inner := by
  obtain ⟨start, asked, ended, state, rfl⟩ := h.frame
  simp only [List.mem_cons, List.mem_append] at hs
  rcases hs with rfl | hs | rfl | hs | hs
  · exact nomatch hsub
  · exact .inl (Option.some.inj (hsub.symm.trans (Reporter.subject_of_mem_signs hs)))
  · exact nomatch hsub
  · exact .inr hs
  · exact .inl (Option.some.inj (hsub.symm.trans (Reporter.subject_of_mem_signs hs)))

theorem mem_inner (h : Framed r registry build inner trace) {sign : Sign Event} (hs : sign ∈ trace)
    {subject : Subject} (hsub : sign.subject? = some subject) {run : TaskRun}
    (hr : subject.task? = some run) : sign ∈ inner := by
  rcases h.subject_cases hs hsub with rfl | hi
  · exact nomatch hr
  · exact hi

/-- The build that a trace shows something of is its own. -/
theorem build_eq (h : Framed r registry build inner trace) {sign : Sign Event} (hs : sign ∈ trace)
    {b : BuildRun} (hsub : sign.subject? = some (.build b)) : b = build := by
  rcases h.subject_cases hs hsub with he | hi
  · exact Subject.build.inj he
  · obtain ⟨run, hr, -⟩ := h.completed.signs sign hi _ hsub
    exact nomatch hr

/-- A task that there is something of has begun. -/
theorem began (h : Framed r registry build inner trace) {sign : Sign Event} (hs : sign ∈ trace)
    {subject : Subject} (hsub : sign.subject? = some subject) {run : TaskRun}
    (hr : subject.task? = some run) : .called (.beforeTask run) ∈ trace := by
  have hc := h.completed.began (h.completed.handed (h.mem_inner hs hsub hr) hsub hr)
  obtain ⟨start, asked, ended, state, rfl⟩ := h.frame
  simp [hc]

/-- **The hooks of the build stand around those of its tasks.** -/
theorem filter_build (h : Framed r registry build inner trace) : ∃ start ended state, ∀ subjects,
    trace.filter (Sign.isAbout (.build build :: subjects)) =
      r.signs start (.beforeBuild build) ++
        (inner.filter (Sign.isAbout subjects) ++ r.signs ended (.afterBuild build state)) := by
  obtain ⟨start, asked, ended, state, rfl⟩ := h.frame
  refine ⟨start, ended, state, ?_⟩
  intro subjects
  have hi : inner.filter (Sign.isAbout (.build build :: subjects)) =
      inner.filter (Sign.isAbout subjects) := by
    refine List.filter_congr ?_
    intro sign hs
    rw [Bool.eq_iff_iff, Sign.isAbout_iff, Sign.isAbout_iff]
    refine ⟨?_, fun ⟨subject, hm, hsub⟩ => ⟨subject, List.mem_cons_of_mem _ hm, hsub⟩⟩
    rintro ⟨subject, hm, hsub⟩
    rcases List.mem_cons.mp hm with rfl | hm
    · obtain ⟨run, hr, -⟩ := h.completed.signs sign hs _ hsub
      exact nomatch hr
    · exact ⟨subject, hm, hsub⟩
  rw [List.filter_cons_of_neg (by simp [Sign.isAbout, Sign.subject?]), List.filter_append,
    Reporter.filter_signs (by simp [Hook.subject]),
    List.filter_cons_of_neg (by simp [Sign.isAbout, Sign.subject?]), List.filter_append, hi,
    Reporter.filter_signs (by simp [Hook.subject])]

/-- Of the tasks a build adds nothing to what they show themselves. -/
theorem filter_inner (h : Framed r registry build inner trace) {subjects : List Subject}
    (hn : .build build ∉ subjects) :
    trace.filter (Sign.isAbout subjects) = inner.filter (Sign.isAbout subjects) := by
  obtain ⟨start, asked, ended, state, rfl⟩ := h.frame
  rw [List.filter_cons_of_neg (by simp [Sign.isAbout, Sign.subject?]), List.filter_append,
    Reporter.filter_signs_of_notMem hn,
    List.filter_cons_of_neg (by simp [Sign.isAbout, Sign.subject?]), List.filter_append,
    Reporter.filter_signs_of_notMem hn, List.nil_append, List.append_nil]

/-- Whatever is sent for a hook is made of it. -/
theorem sent (h : Framed r registry build inner trace) {hook : Hook} {e : Event}
    (he : .sent hook e ∈ trace) : ∃ now, e ∈ r.emit now hook := by
  obtain ⟨start, asked, ended, state, rfl⟩ := h.frame
  simp only [List.mem_cons, List.mem_append] at he
  rcases he with he | he | he | he | he
  · exact nomatch he
  · exact ⟨_, Reporter.mem_emit_of_sent he⟩
  · exact nomatch he
  · exact h.completed.sent he
  · exact ⟨_, Reporter.mem_emit_of_sent he⟩

/-- A run belongs to a task, so it is not the build that has the kind of a build. -/
theorem kind_of_task? {subject : Subject} {run : TaskRun} (h : subject.task? = some run) :
    subject.descriptor.kind ≠ .build := by
  cases subject with
  | build b => exact nomatch h
  | task t => exact fun hk => nomatch hk
  | test x => exact fun hk => nomatch hk

/-- **Subjects of a build have ids of their own.** -/
theorem subject_inj (h : Framed r registry build inner trace) {sign sign' : Sign Event}
    {subject subject' : Subject} (hs : sign ∈ trace) (hs' : sign' ∈ trace)
    (hsub : sign.subject? = some subject) (hsub' : sign'.subject? = some subject')
    (hid : subject.descriptor.id = subject'.descriptor.id) : subject = subject' := by
  have differ {sign : Sign Event} {subject : Subject} (hs : sign ∈ inner)
      (hsub : sign.subject? = some subject) :
      (Subject.build build).descriptor.id ≠ subject.descriptor.id := by
    obtain ⟨run, hr, -⟩ := h.completed.signs sign hs subject hsub
    cases subject with
    | build b => exact nomatch hr
    | task t => exact fun hid => nomatch hid
    | test x => exact fun hid => nomatch hid
  rcases h.subject_cases hs hsub with rfl | hi <;> rcases h.subject_cases hs' hsub' with rfl | hi'
  · rfl
  · exact absurd hid (differ hi' hsub')
  · exact absurd hid.symm (differ hi hsub)
  · exact h.completed.subject_inj hi hi' hsub hsub' hid

end Framed

/-! ## 2. Builds -/

namespace Schedule

variable {su : ScheduleSetup Event}

/-- What a schedule shows by its end, as long as no stamp came twice. -/
theorem completed_run {generator : Generator} {requested : Bool} {choices : List Choice}
    (hf : ((start su generator requested).run su choices).isFinished = true)
    (hb : ((start su generator requested).run su choices).stamps.length ≤ UInt64.size) :
    Completed su.reporter su.registry su.build
      ((start su generator requested).run su choices).trace := by
  have hw : ((start su generator requested).run su choices).inWave = false := by
    simp only [isFinished, Bool.and_eq_true, Bool.not_eq_true'] at hf
    exact hf.2
  exact (traced_run hb).completed_trace (settled_run su generator requested _ hw).1 hb

end Schedule

namespace Engine

/-- The run of a build whose stamps come from a generator. -/
def runOf (g : Generator) : BuildRun := ⟨g.allocate.1⟩

/-- The trace of a build, around what its tasks show. -/
abbrev around (request : Request) (run : BuildRun) (start ended : Timestamp) (asked : Bool)
    (state : BuildState) (inner : List (Sign Event)) : List (Sign Event) :=
  .begun run :: ((reporter request start).signs start (.beforeBuild run) ++
    .asked none asked :: (inner ++ (reporter request start).signs ended (.afterBuild run state)))

section Around

variable {request : Request} {run : BuildRun} {start ended : Timestamp} {asked : Bool}
  {state : BuildState} {inner : List (Sign Event)}

theorem mem_around {sign : Sign Event} (h : sign ∈ inner) :
    sign ∈ around request run start ended asked state inner := by
  simp [around, h]

/-- A build adds nothing to what there is of a task. -/
theorem filter_around (task : TaskRun) :
    ((around request run start ended asked state inner).filter fun sign =>
      decide (sign.worker? = some task)) =
      inner.filter fun sign => decide (sign.worker? = some task) := by
  have hnone (now : Timestamp) {hook : Hook} (hh : hook.subject.task? = none) :
      (((reporter request start).signs now hook).filter fun sign =>
        decide (sign.worker? = some task)) = [] := by
    refine List.filter_eq_nil_iff.mpr fun sign hs => ?_
    rw [Sign.worker?_of_subject? (Reporter.subject_of_mem_signs hs), hh]
    simp
  rw [around, List.filter_cons_of_neg (by simp [Sign.worker?]), List.filter_append,
    hnone start rfl, List.nil_append, List.filter_cons_of_neg (by simp [Sign.worker?]),
    List.filter_append, hnone ended rfl, List.append_nil]

theorem mem_around_of_worker? {sign : Sign Event} {task : TaskRun}
    (h : sign.worker? = some task) :
    sign ∈ around request run start ended asked state inner ↔ sign ∈ inner := by
  have hmem {signs : List (Sign Event)} :
      sign ∈ signs ↔ sign ∈ signs.filter fun sign => decide (sign.worker? = some task) := by
    simp [List.mem_filter, h]
  rw [hmem, filter_around, ← hmem]

/-- A sign of no hook is the build's own stamp, the question before it, or of its tasks. -/
theorem mem_around_of_subject? {sign : Sign Event} (h : sign.subject? = none) :
    sign ∈ around request run start ended asked state inner ↔
      sign = .begun run ∨ sign = .asked none asked ∨ sign ∈ inner := by
  have hsigns (now : Timestamp) (hook : Hook) : sign ∉ (reporter request start).signs now hook :=
    fun hm => nomatch h.symm.trans (Reporter.subject_of_mem_signs hm)
  simp [around, hsigns]

theorem handed_mem_around {task : TaskRun} :
    .handed task ∈ around request run start ended asked state inner ↔ .handed task ∈ inner := by
  rw [mem_around_of_subject? rfl]
  simp

end Around

/-- **The course of a build** after the question before it, and what is known in the end: it is
cancelled before anything is planned, it cannot be planned, its plan asks for more permits than
there can be and nothing is known of an end, or its plan is run to the end. -/
inductive Course (e : Engine) (request : Request) (run : BuildRun) (start : Timestamp) :
    Bool → Option Progressed → Prop
  | cancelled (requested : Bool) :
      Course e request run start true (some (unplanned [] true requested))
  | unplannable {error : PlanError} (requested : Bool)
      (hp : Plan.ofRequest e.registry request = .error error) :
      Course e request run start false (some (unplanned [.ofMessage error.message] false requested))
  | brokenDown {plan : Plan} (hp : Plan.ofRequest e.registry request = .ok plan)
      (hl : ScheduleOptions.maxPermits < e.options.permits) : Course e request run start false none
  | scheduled {plan : Plan} (g : Generator) (requested : Bool) (choices : List Choice)
      (hp : Plan.ofRequest e.registry request = .ok plan)
      (hl : e.options.permits ≤ ScheduleOptions.maxPermits)
      (hf : ((Schedule.start (e.setup request run start plan) g requested).run
        (e.setup request run start plan) choices).isFinished = true) :
      Course e request run start false (some (scheduled (e.setup request run start plan)
        ((Schedule.start (e.setup request run start plan) g requested).run
          (e.setup request run start plan) choices)))

/-- A build breaks down that gets as far as its schedule and asks for more permits than there can
be. -/
structure BreaksDown (e : Engine) (request : Request) (asked : Bool) : Prop where
  notCancelled : asked = false
  planned : ∃ plan, Plan.ofRequest e.registry request = .ok plan
  permits : ScheduleOptions.maxPermits < e.options.permits

theorem progressBy_course (e : Engine) (request : Request) (run : BuildRun) (g : Generator)
    (requested : Bool) (start : Timestamp) (choices : List Choice) :
    Course e request run start (request.cancellation.isSome && requested)
      (progressBy (fun su s => s.runToEnd su choices) e request run g requested start) := by
  unfold progressBy
  cases hasked : request.cancellation.isSome && requested with
  | true => exact .cancelled requested
  | false =>
    simp only [Bool.false_eq_true, if_false]
    split
    · next error hp => exact .unplannable requested hp
    · next plan hp =>
      split
      · next hl => exact .brokenDown hp hl
      · next hl =>
        let su := e.setup request run start plan
        have hf := Schedule.isFinished_runToEnd su choices (Schedule.start su g requested)
        obtain ⟨more, hrun⟩ := Schedule.runToEnd_eq_run su choices (Schedule.start su g requested)
        simp only [su] at hrun hf
        rw [hrun] at hf
        simp only [hrun]
        exact .scheduled g requested _ hp (Nat.le_of_not_lt hl) hf

section Course

variable {e : Engine} {request : Request} {run : BuildRun} {start : Timestamp} {asked : Bool}

theorem Course.breaksDown (h : Course e request run start asked none) :
    e.BreaksDown request asked := by
  cases h with
  | brokenDown hp hl => exact ⟨rfl, ⟨_, hp⟩, hl⟩

theorem Course.not_breaksDown {p : Progressed} (h : Course e request run start asked (some p)) :
    ¬ e.BreaksDown request asked := by
  intro hd
  cases h with
  | cancelled requested => exact nomatch hd.notCancelled
  | unplannable requested hp =>
    obtain ⟨plan, hplan⟩ := hd.planned
    exact nomatch hp.symm.trans hplan
  | scheduled g requested choices hp hl hf => exact absurd hd.permits (Nat.not_lt.mpr hl)

end Course

/-- A build in terms of what is known before it finishes. -/
theorem buildBy_eq (finish : ScheduleSetup Event → Schedule Event → Schedule Event) (e : Engine)
    (request : Request) (g : Generator) (requested : Bool) (start : Timestamp) :
    e.buildBy finish request g requested start =
      (progressBy finish e request (runOf g) g.allocate.2 requested start).elim
        ⟨opening request (runOf g) requested start, none, requested⟩ fun p =>
          ⟨opening request (runOf g) requested start ++
            (p.trace ++ closing request (runOf g) start p), some (summaryOf p), p.requested⟩ := by
  unfold buildBy
  dsimp only [runOf]
  cases progressBy finish e request ⟨g.allocate.1⟩ g.allocate.2 requested start <;> rfl

/-- What a build shows that comes to its finish stands around what its tasks show. -/
theorem opening_append (request : Request) (run : BuildRun) (requested : Bool) (start : Timestamp)
    (p : Progressed) :
    opening request run requested start ++ (p.trace ++ closing request run start p) =
      around request run start (start.plusMillis p.millis)
        (request.cancellation.isSome && requested) (stateOf start p) p.trace := by
  simp [opening, around, closing, stateOf]

/-- **What a build shows and reports**, given the course it took: a summary, and what its tasks show
between its own hooks, or no summary, and what it shows before it is planned. -/
theorem buildAlong_course (e : Engine) (request : Request) (g : Generator) (requested : Bool)
    (start : Timestamp) (choices : List Choice) :
    let asked := request.cancellation.isSome && requested
    let result := e.buildAlong choices request g requested start
    (∃ p ended, Course e request (runOf g) start asked (some p) ∧
      result.trace = around request (runOf g) start ended asked
        { startTime := start, endTime := ended, cancelled := p.cancelled, failures := p.failures }
        p.trace ∧
      result.summary? = some (summaryOf p) ∧ result.requested = p.requested) ∨
    Course e request (runOf g) start asked none ∧
      result.trace = opening request (runOf g) requested start ∧
      result.summary? = none ∧ result.requested = requested := by
  intro asked result
  have hcourse : Course e request (runOf g) start asked _ :=
    progressBy_course e request (runOf g) g.allocate.2 requested start choices
  have hresult : result = _ := buildBy_eq _ e request g requested start
  cases hp : progressBy (fun su s => s.runToEnd su choices) e request (runOf g) g.allocate.2
    requested start with
  | none =>
    rw [hp] at hcourse hresult
    exact .inr ⟨hcourse, by rw [hresult]; exact ⟨rfl, rfl, rfl⟩⟩
  | some p =>
    rw [hp] at hcourse hresult
    refine .inl ⟨p, start.plusMillis p.millis, hcourse, ?_⟩
    rw [hresult]
    exact ⟨opening_append request (runOf g) requested start p, rfl, rfl⟩

/-- **Which builds have no summary**: those that break down. -/
theorem summary?_eq_none_iff (e : Engine) (request : Request) (g : Generator) (requested : Bool)
    (start : Timestamp) (choices : List Choice) :
    (e.buildAlong choices request g requested start).summary? = none ↔
      e.BreaksDown request (request.cancellation.isSome && requested) := by
  rcases buildAlong_course e request g requested start choices with
    ⟨p, ended, hcourse, -, hs, -⟩ | ⟨hcourse, -, hs, -⟩ <;> rw [hs]
  · exact iff_of_false (Option.some_ne_none _) hcourse.not_breaksDown
  · exact iff_of_true rfl hcourse.breaksDown

section Framed

variable {e : Engine} {request : Request} {g : Generator} {requested : Bool} {start : Timestamp}
  {choices : List Choice}

/-- What a build shows before it is planned is the beginning of a trace without tasks. -/
theorem framed_opening (registry : Registry) (request : Request) (run : BuildRun)
    (requested : Bool) (start ended : Timestamp) (state : BuildState) :
    Framed (reporter request start) registry run []
      (opening request run requested start ++
        (reporter request start).signs ended (.afterBuild run state)) where
  completed := .nil
  frame := ⟨start, request.cancellation.isSome && requested, ended, state, by simp [opening]⟩

/-- **The trace of a build** in whatever order the workers take their steps, as long as no stamp
came twice: its hooks around what its tasks show, or if it broke down, what it shows before it is
planned. -/
theorem framed_cases
    (hb : (e.buildAlong choices request g requested start).stamps.length ≤ UInt64.size) :
    let result := e.buildAlong choices request g requested start
    (∃ summary inner, result.summary? = some summary ∧
      Framed (reporter request start) e.registry (runOf g) inner result.trace) ∨
    result.summary? = none ∧ result.trace = opening request (runOf g) requested start := by
  intro result
  rcases buildAlong_course e request g requested start choices with
    ⟨p, ended, hcourse, ht, hs, -⟩ | ⟨-, ht, hs, -⟩
  · have hle : (p.trace.filterMap Sign.stamp?).length ≤ UInt64.size := by
      refine Nat.le_trans (List.Sublist.length_le ?_) hb
      rw [BuildResult.stamps, ht]
      exact .filterMap _ (.cons _ (.trans (.cons _ (List.sublist_append_left _ _))
        (List.sublist_append_right _ _)))
    refine .inl ⟨summaryOf p, p.trace, hs, ?_, start, _, ended, _, ht⟩
    generalize (request.cancellation.isSome && requested) = asked at hcourse
    cases hcourse with
    | cancelled => exact .nil
    | unplannable => exact .nil
    | scheduled _ _ _ _ _ hf => exact Schedule.completed_run hf hle
  · exact .inr ⟨hs, ht⟩

/-- Every trace of a build is the beginning of a framed one, also if it breaks down. -/
theorem buildAlong_framed
    (hb : (e.buildAlong choices request g requested start).stamps.length ≤ UInt64.size) :
    ∃ inner more, Framed (reporter request start) e.registry (runOf g) inner
      ((e.buildAlong choices request g requested start).trace ++ more) := by
  rcases framed_cases hb with ⟨summary, inner, -, h⟩ | ⟨-, ht⟩
  · exact ⟨inner, [], by rwa [List.append_nil]⟩
  · have h := framed_opening e.registry request (runOf g) requested start start
      (stateOf start (unplanned [] false requested))
    rw [← ht] at h
    exact ⟨[], _, h⟩

theorem notMem_opening {run : BuildRun} {task : TaskRun} :
    .handed task ∉ opening request run requested start := by
  have hsigns : .handed task ∉ (reporter request start).signs start (.beforeBuild run) :=
    fun hm => nomatch Reporter.subject_of_mem_signs hm
  simp [opening, hsigns]

/-- A build that hands over a task does not break down. -/
theorem framed_of_handed
    (hb : (e.buildAlong choices request g requested start).stamps.length ≤ UInt64.size)
    {task : TaskRun} (hr : .handed task ∈ (e.buildAlong choices request g requested start).trace) :
    ∃ inner, Framed (reporter request start) e.registry (runOf g) inner
      (e.buildAlong choices request g requested start).trace := by
  rcases framed_cases hb with ⟨summary, inner, -, h⟩ | ⟨-, ht⟩
  · exact ⟨inner, h⟩
  · exact absurd (ht ▸ hr) notMem_opening

end Framed

/-- Where the choices lead to the end of the schedule, a build follows nothing else. -/
theorem buildAlong_of_isFinished {e : Engine} {request : Request} {g : Generator}
    {requested : Bool} {start : Timestamp} {choices : List Choice}
    (h : ∀ plan, Plan.ofRequest e.registry request = .ok plan →
      ((Schedule.start (e.setup request (runOf g) start plan) g.allocate.2 requested).run
        (e.setup request (runOf g) start plan) choices).isFinished = true) :
    e.buildAlong choices request g requested start =
      e.buildBy (fun su s => s.run su choices) request g requested start := by
  have hp : progressBy (fun su s => s.runToEnd su choices) e request (runOf g) g.allocate.2
        requested start =
      progressBy (fun su s => s.run su choices) e request (runOf g) g.allocate.2 requested
        start := by
    unfold progressBy
    split
    · rfl
    · split
      · rfl
      · next plan hplan => simp only [Schedule.runToEnd_of_isFinished (h plan hplan)]
  rw [buildAlong, buildBy_eq, hp, buildBy_eq]

/-- **A driven build follows some choices**, so what holds for all choices holds of it. -/
theorem build_eq_buildAlong (deadline : Option Nat) (e : Engine) (request : Request)
    (g : Generator) (requested : Bool) (start : Timestamp) :
    ∃ choices, build deadline e request g requested start =
      buildAlong choices e request g requested start := by
  have hp : ∃ choices,
      progressBy (fun su s => s.drive su deadline) e request (runOf g) g.allocate.2
        requested start =
      progressBy (fun su s => s.runToEnd su choices) e request (runOf g) g.allocate.2
        requested start := by
    unfold progressBy
    split
    · exact ⟨[], rfl⟩
    · split
      · exact ⟨[], rfl⟩
      · next plan _ =>
        let su := e.setup request (runOf g) start plan
        obtain ⟨choices, hc⟩ :=
          Schedule.drive_eq_run su deadline (Schedule.start su g.allocate.2 requested)
        have hfin := Schedule.isFinished_drive su deadline
          (Schedule.start su g.allocate.2 requested)
        rw [hc] at hfin
        refine ⟨choices, ?_⟩
        simp only [su] at hc hfin
        simp only [hc, Schedule.runToEnd_of_isFinished hfin]
  obtain ⟨choices, hp⟩ := hp
  exact ⟨choices, by rw [build, buildAlong, buildBy_eq, hp, buildBy_eq]⟩

end Engine

end BuildStream
