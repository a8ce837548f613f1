/-
# What a client is told of its build

The events of a build are fed, in the order in which they were sent, to the stream of the request
that asked for it.  The engine sends them from workers that take their steps in any order, and the
stream refuses whatever does not fit; this module shows that the two agree.

* The events are always an orderly list (`Framed.orderly`), so all of them are accepted and
  the stream is closed at the end.  The events of a build that breaks down are the beginning of
  such a list; they are accepted too, and leave the stream open with the build in flight.
* Listeners are told of brackets.  Whatever listeners are chosen, one for each kind, they are told
  of the start of the build, the start of the task, the start of the test and the three finishes
  the other way round, less the kinds for which there is no listener
  (`buildAlong_delivers`).

The link between the two sides is the mark of a hook: what is sent for a hook tells of no other
mark, and of this one exactly if somebody listens (`Hook.filterMap_mark?_events`).
-/
import BuildStream.Proofs.Engine.Trace
import BuildStream.Proofs.Forwarding
import BuildStream.Proofs.Stream

namespace BuildStream

/-! ## 1. Marks of hooks -/

namespace Hook

/-- Whether a hook comes before its run. -/
def isBefore : Hook → Bool
  | beforeBuild _ => true
  | afterBuild _ _ => false
  | beforeTask _ => true
  | afterTask _ _ => false
  | beforeTest _ => true
  | afterTest _ _ => false

/-- The start or finish that a hook stands for. -/
def mark (h : Hook) : Mark := ⟨h.subject.descriptor, h.isBefore⟩

variable (s : Subscriptions) (now : Timestamp)

theorem filterMap_mark?_started (d : Descriptor) :
    (started s now d).filterMap Event.mark? = if s.wants d.kind then [⟨d, true⟩] else [] := by
  unfold started progressIf statusIf
  cases s.wants d.kind <;> cases s.status <;> rfl

theorem filterMap_mark?_finished (d : Descriptor) (r : OperationResult) :
    (finished s now d r).filterMap Event.mark? = if s.wants d.kind then [⟨d, false⟩] else [] := by
  unfold finished progressIf statusIf
  cases s.wants d.kind <;> cases s.status <;> rfl

/-- A hook before a run is forwarded as its start, and a hook after it as its finish. -/
theorem events_cases (h : Hook) :
    h.isBefore = true ∧ h.events s now = started s now h.subject.descriptor ∨
      h.isBefore = false ∧ ∃ r, h.events s now = finished s now h.subject.descriptor r := by
  cases h with
  | beforeBuild b => exact .inl ⟨rfl, rfl⟩
  | afterBuild b state => exact .inr ⟨rfl, _, rfl⟩
  | beforeTask t => exact .inl ⟨rfl, if_forwards_started s now t.descriptor⟩
  | afterTask t state => exact .inr ⟨rfl, _, if_forwards_finished s now t.descriptor _⟩
  | beforeTest t => exact .inl ⟨rfl, if_forwards_started s now t.descriptor⟩
  | afterTest t state => exact .inr ⟨rfl, _, if_forwards_finished s now t.descriptor _⟩

/-- **What is sent for a hook** tells of its mark, if the kind is wanted, and of nothing else. -/
theorem filterMap_mark?_events (h : Hook) :
    (h.events s now).filterMap Event.mark? =
      if s.wants h.subject.descriptor.kind then [h.mark] else [] := by
  rcases h.events_cases s now with ⟨hb, he⟩ | ⟨hb, r, he⟩
  · rw [he, mark, hb]
    exact filterMap_mark?_started s now _
  · rw [he, mark, hb]
    exact filterMap_mark?_finished s now _ r

theorem mark_of_mem_events {s : Subscriptions} {now : Timestamp} {h : Hook} {e : Event}
    (he : e ∈ h.events s now) {m : Mark} (hm : e.mark? = some m) : m = h.mark := by
  have hmem : m ∈ (h.events s now).filterMap Event.mark? := List.mem_filterMap.mpr ⟨e, he, hm⟩
  rw [filterMap_mark?_events] at hmem
  split at hmem
  · exact List.mem_singleton.mp hmem
  · exact nomatch hmem

end Hook

/-- What is sent for a hook are its events. -/
theorem Engine.filterMap_sent?_signs (request : Request) (start now : Timestamp) (h : Hook) :
    ((reporter request start).signs now h).filterMap Sign.sent? =
      h.events request.subscriptions now := by
  simp only [Reporter.signs, List.filterMap_cons, Sign.sent?, List.filterMap_map]
  exact List.filterMap_some

theorem Sign.eq_sent {sign : Sign Event} {e : Event} (h : sign.sent? = some e) :
    ∃ hook, sign = .sent hook e := by
  cases sign with
  | sent hook x =>
    cases h
    exact ⟨hook, rfl⟩
  | _ => exact nomatch h

theorem Sign.eq_called {sign : Sign Event} {hook : Hook} (h : sign.called? = some hook) :
    sign = .called hook := by
  cases sign with
  | called other =>
    cases h
    rfl
  | _ => exact nomatch h

namespace Mark

theorem prefix_pair (wanted : Bool) (d : Descriptor) :
    (if wanted = true then [Mark.mk d true] else []) ++
      (if wanted = true then [Mark.mk d false] else []) <+: pair d := by
  cases wanted with
  | true => exact List.prefix_refl _
  | false => exact List.nil_prefix

theorem prefix_pair_of_start (wanted : Bool) (d : Descriptor) :
    (if wanted = true then [Mark.mk d true] else []) ++ [] <+: pair d := by
  cases wanted with
  | true => exact List.prefix_append _ [Mark.mk d false]
  | false => exact List.nil_prefix

end Mark

/-- The starts and finishes that what was sent tells of. -/
def Sign.marks (trace : List (Sign Event)) : List Mark :=
  (trace.filterMap Sign.sent?).filterMap Event.mark?

theorem Sign.marks_append (trace more : List (Sign Event)) :
    marks (trace ++ more) = marks trace ++ marks more := by
  simp only [marks, List.filterMap_append]

/-- The marks of the signs of a hook. -/
theorem Sign.marks_signs (request : Request) (start now : Timestamp) (h : Hook) :
    marks ((Engine.reporter request start).signs now h) =
      if request.subscriptions.wants h.subject.descriptor.kind then [h.mark] else [] := by
  rw [marks, Engine.filterMap_sent?_signs, Hook.filterMap_mark?_events]

/-- Marks that belong to some subjects are those of the signs about them. -/
theorem Sign.filter_marks {request : Request} {start : Timestamp} {trace : List (Sign Event)}
    {p : Mark → Bool} {subjects : List Subject}
    (hs : ∀ hook e, .sent hook e ∈ trace → ∃ now, e ∈ (Engine.reporter request start).emit now hook)
    (hp : ∀ hook e, .sent hook e ∈ trace → (p hook.mark = true ↔ hook.subject ∈ subjects)) :
    (marks trace).filter p = marks (trace.filter (Sign.isAbout subjects)) := by
  induction trace with
  | nil => rfl
  | cons sign trace ih =>
    have ih := ih (fun hook e he => hs hook e (by simp [he]))
      fun hook e he => hp hook e (by simp [he])
    have hcons : marks (sign :: trace) = marks [sign] ++ marks trace := marks_append [sign] trace
    have hfilter : (sign :: trace).filter (Sign.isAbout subjects) =
        [sign].filter (Sign.isAbout subjects) ++ trace.filter (Sign.isAbout subjects) := by
      rw [← List.filter_append, List.singleton_append]
    rw [hcons, List.filter_append, ih, hfilter, marks_append]
    congr 1
    cases sign with
    | sent hook e =>
      obtain ⟨now, he⟩ := hs hook e (by simp)
      have hp := hp hook e (by simp)
      have hab : (Sign.sent hook e).isAbout subjects = p hook.mark := by
        rw [Bool.eq_iff_iff, hp, Sign.isAbout_iff]
        simp [Sign.subject?]
      cases hm : e.mark? with
      | none => cases hb : p hook.mark <;> simp [marks, Sign.sent?, hm, hab, hb]
      | some m =>
        obtain rfl := Hook.mark_of_mem_events he hm
        cases hb : p hook.mark <;> simp [marks, Sign.sent?, hm, hab, hb]
    | _ => simp [marks, Sign.sent?, Sign.isAbout, Sign.subject?, List.filter_cons] <;> split <;> rfl

/-! ## 2. The events of a build are orderly -/

theorem Event.mark?_of_isBuildFinish {e : Event} (h : e.isBuildFinish = true) :
    ∃ m, e.mark? = some m ∧ m.descriptor.kind = .build := by
  cases e with
  | status e => exact nomatch h
  | progress e =>
    obtain ⟨time, descriptor, progress⟩ := e
    cases progress with
    | started => exact nomatch h
    | finished r => exact ⟨_, rfl, by simpa [isBuildFinish] using h⟩

/-- What is sent for a hook of a task or a test does not end a build. -/
theorem Hook.isBuildFinish_of_mem_events {s : Subscriptions} {now : Timestamp} {h : Hook}
    {e : Event} (he : e ∈ h.events s now) {run : TaskRun} (hr : h.subject.task? = some run) :
    e.isBuildFinish = false := by
  refine Bool.eq_false_iff.mpr fun hb => ?_
  obtain ⟨m, hm, hk⟩ := Event.mark?_of_isBuildFinish hb
  rw [Hook.mark_of_mem_events he hm] at hk
  exact Framed.kind_of_task? hr hk

theorem Hook.isBuildFinish_of_mem_statusIf {s : Subscriptions} {now : Timestamp}
    {change : StatusChange} {e : Event} (he : e ∈ Hook.statusIf s now change) :
    e.isBuildFinish = false := by
  unfold Hook.statusIf at he
  split at he
  · rw [List.mem_singleton.mp he]
    rfl
  · exact nomatch he

namespace Framed

variable {request : Request} {start : Timestamp} {registry : Registry} {build : BuildRun}
  {inner trace : List (Sign Event)}

/-- The marks of an id are those of the signs about the subject it belongs to. -/
theorem ofId_eq (h : Framed (Engine.reporter request start) registry build inner trace)
    {sign : Sign Event} (hs : sign ∈ trace) {subject : Subject}
    (hsub : sign.subject? = some subject) :
    Mark.ofId subject.descriptor.id (trace.filterMap Sign.sent?) =
      Sign.marks (trace.filter (Sign.isAbout [subject])) := by
  refine Sign.filter_marks (fun hook e => h.sent) ?_
  intro hook e he
  rw [decide_eq_true_iff, List.mem_singleton]
  refine ⟨fun hid => h.subject_inj he hs rfl hsub hid, ?_⟩
  intro hid
  rw [← hid]
  rfl

/-- A mark has the id of one of some subjects of a trace if it belongs to one of them. -/
theorem id_mem_iff (h : Framed (Engine.reporter request start) registry build inner trace)
    {subjects : List Subject}
    (hs : ∀ subject ∈ subjects, ∃ sign ∈ trace, sign.subject? = some subject) {hook : Hook}
    {e : Event} (he : .sent hook e ∈ trace) :
    decide (hook.mark.descriptor.id ∈ subjects.map (·.descriptor.id)) = true ↔
      hook.subject ∈ subjects := by
  rw [decide_eq_true_iff, List.mem_map]
  refine ⟨fun ⟨subject, hm, hid⟩ => ?_, fun hm => ⟨_, hm, rfl⟩⟩
  obtain ⟨sign, hsign, hsub⟩ := hs subject hm
  rw [h.subject_inj he hsign rfl hsub hid.symm]
  exact hm

/-- An id that belongs to no subject of the trace has no marks. -/
theorem ofId_eq_nil (h : Framed (Engine.reporter request start) registry build inner trace)
    {id : OperationId} (hn : ∀ sign ∈ trace, ∀ subject, sign.subject? = some subject →
      subject.descriptor.id ≠ id) : Mark.ofId id (trace.filterMap Sign.sent?) = [] := by
  have hf : (Sign.marks trace).filter (fun m => decide (m.descriptor.id = id)) =
      Sign.marks (trace.filter (Sign.isAbout [])) := by
    refine Sign.filter_marks (fun hook e => h.sent) ?_
    intro hook e he
    rw [decide_eq_true_iff]
    exact ⟨fun hid => absurd hid (hn _ he _ rfl), fun hm => nomatch hm⟩
  rw [Mark.ofId, ← Sign.marks, hf, Sign.filter_isAbout_nil]
  rfl

/-- Of a subject there is at most a start and then at most a finish. -/
theorem prefix_pair (h : Framed (Engine.reporter request start) registry build inner trace)
    {sign : Sign Event} (hs : sign ∈ trace) {subject : Subject}
    (hsub : sign.subject? = some subject) :
    Sign.marks (trace.filter (Sign.isAbout [subject])) <+: Mark.pair subject.descriptor := by
  cases subject with
  | build b =>
    obtain ⟨began, ended, state, hb⟩ := h.filter_build
    rw [h.build_eq hs hsub, hb [], Sign.filter_isAbout_nil, List.nil_append, Sign.marks_append,
      Sign.marks_signs, Sign.marks_signs]
    exact List.prefix_refl _
  | task t =>
    have hi := h.mem_inner hs hsub rfl
    obtain ⟨before, last, hf, hl⟩ := h.completed.filter_task (h.completed.handed hi hsub rfl)
    rw [h.filter_inner (by simp), hf, Sign.marks_append, Sign.marks_signs]
    rcases hl with ⟨after, state, rfl⟩ | ⟨rfl, -⟩
    · rw [Sign.marks_signs]
      exact Mark.prefix_pair _ _
    · exact Mark.prefix_pair_of_start _ _
  | test x =>
    have hi := h.mem_inner hs hsub rfl
    obtain ⟨_, before, after, state, _, -, hf, -⟩ := h.completed.filter_test hi hsub
    rw [h.filter_inner (by simp), hf, Sign.marks_append, Sign.marks_signs, Sign.marks_signs]
    exact Mark.prefix_pair _ _

/-- Of an id there is at most a start and then at most a finish. -/
theorem paired (h : Framed (Engine.reporter request start) registry build inner trace) :
    Paired (trace.filterMap Sign.sent?) := by
  intro id
  by_cases hex : ∃ sign ∈ trace, ∃ subject, sign.subject? = some subject ∧
    subject.descriptor.id = id
  · obtain ⟨sign, hs, subject, hsub, rfl⟩ := hex
    exact ⟨subject.descriptor, h.ofId_eq hs hsub ▸ h.prefix_pair hs hsub⟩
  · refine ⟨build.descriptor, ?_⟩
    rw [h.ofId_eq_nil fun sign hs subject hsub hid => hex ⟨sign, hs, subject, hsub, hid⟩]
    exact List.nil_prefix

/-- **The events of a build are orderly.** -/
theorem orderly (h : Framed (Engine.reporter request start) registry build inner trace) :
    Orderly (trace.filterMap Sign.sent?) := by
  refine ⟨?_, h.paired⟩
  obtain ⟨began, asked, ended, state, rfl⟩ := h.frame
  let s := request.subscriptions
  let d := build.descriptor
  refine ⟨.progress ⟨began, d, .started⟩,
    Hook.statusIf s began (.started d.id d.displayName) ++
      (inner.filterMap Sign.sent? ++ Hook.statusIf s ended (.finished d.id)),
    .progress ⟨ended, d, .finished state.result⟩, ?_, rfl, rfl, ?_⟩
  · simp only [List.filterMap_cons, List.filterMap_append, Engine.filterMap_sent?_signs, Sign.sent?]
    simp [Hook.events, Hook.started, Hook.finished, Hook.progressIf, Subscriptions.wants,
      Descriptor.kind, BuildRun.descriptor, Descriptor.ofBuild, s, d]
  · intro e he
    simp only [List.mem_append] at he
    rcases he with he | he | he
    · exact Hook.isBuildFinish_of_mem_statusIf he
    · obtain ⟨sign, hs, hsent⟩ := List.mem_filterMap.mp he
      obtain ⟨hook, rfl⟩ := Sign.eq_sent hsent
      obtain ⟨now, hemit⟩ := h.completed.sent hs
      obtain ⟨run, hr, -⟩ := h.completed.signs _ hs _ rfl
      exact Hook.isBuildFinish_of_mem_events hemit hr
    · exact Hook.isBuildFinish_of_mem_statusIf he

end Framed

/-- **The events of a build are the beginning of an orderly list**, also if it breaks down. -/
theorem Engine.buildAlong_orderly {e : Engine} {request : Request} {g : Generator}
    {requested : Bool} {start : Timestamp} {choices : List Choice}
    (hb : (e.buildAlong choices request g requested start).stamps.length ≤ UInt64.size) :
    ∃ rest, Orderly ((e.buildAlong choices request g requested start).events ++ rest) := by
  obtain ⟨inner, more, h⟩ := buildAlong_framed hb
  have horderly := h.orderly
  rw [List.filterMap_append] at horderly
  exact ⟨_, horderly⟩

/-! ## 3. What listeners are told of a build -/

theorem EventKind.ofOperation_eq_build {kind : OperationKind} :
    ofOperation kind = .build ↔ kind = .build := by
  cases kind <;> simp [ofOperation]

theorem Listeners.ofKind_of_not_wants {ls : Listeners} {kind : OperationKind}
    (h : ls.subscriptions.wants kind = false) : ls.ofKind (.ofOperation kind) = [] := by
  cases kind with
  | build => exact nomatch h
  | task =>
    have hl : ls.task = [] := by simpa [subscriptions, Subscriptions.wants] using h
    exact hl
  | test =>
    have hl : ls.test = [] := by simpa [subscriptions, Subscriptions.wants] using h
    exact hl

/-- Where nobody listens, nothing is sent that somebody could have been told of. -/
theorem Sign.filter_marks_signs (request : Request) (start now : Timestamp) (h : Hook)
    (pick : EventKind → Nat) :
    (marks ((Engine.reporter request start).signs now h)).filter (request.listeners.hears pick) =
      [h.mark].filter (request.listeners.hears pick) := by
  rw [marks_signs]
  cases hw : request.subscriptions.wants h.subject.descriptor.kind with
  | true => rfl
  | false =>
    have hnone : request.listeners.ofKind h.mark.kind = [] := Listeners.ofKind_of_not_wants hw
    have hf : request.listeners.hears pick h.mark = false := by simp [Listeners.hears, hnone]
    simp [hf]

namespace Framed

variable {request : Request} {start : Timestamp} {registry : Registry} {build : BuildRun}
  {inner trace : List (Sign Event)} {pick : EventKind → Nat} {outcomes : List Stream.Outcome}

/-- The marks of some subjects, as they are told, are those of the signs about them. -/
theorem told_filter (h : Framed (Engine.reporter request start) registry build inner trace)
    (hd : List.Forall₂ (Stream.Delivered request.listeners) (trace.filterMap Sign.sent?) outcomes)
    (hu : ∀ o ∈ outcomes, o.broken = false) {p : Mark → Bool} {subjects : List Subject}
    (hp : ∀ hook e, .sent hook e ∈ trace → (p hook.mark = true ↔ hook.subject ∈ subjects)) :
    (Stream.told pick outcomes).filter p =
      (Sign.marks (trace.filter (Sign.isAbout subjects))).filter (request.listeners.hears pick) := by
  rw [Stream.told_of_delivered hd hu, List.filter_comm, ← Sign.marks,
    Sign.filter_marks (fun hook e => h.sent) hp]

/-- The marks with the ids of some subjects of a trace are those of the signs about them. -/
theorem told_ids (h : Framed (Engine.reporter request start) registry build inner trace)
    (hd : List.Forall₂ (Stream.Delivered request.listeners) (trace.filterMap Sign.sent?) outcomes)
    (hu : ∀ o ∈ outcomes, o.broken = false) {subjects : List Subject}
    (hs : ∀ subject ∈ subjects, ∃ sign ∈ trace, sign.subject? = some subject) :
    ((Stream.told pick outcomes).filter fun m =>
        decide (m.descriptor.id ∈ subjects.map (·.descriptor.id))) =
      (Sign.marks (trace.filter (Sign.isAbout subjects))).filter
        (request.listeners.hears pick) :=
  h.told_filter hd hu fun _ _ => h.id_mem_iff hs

/-- A build shows its own hooks. -/
theorem build_mem (h : Framed (Engine.reporter request start) registry build inner trace) :
    ∃ sign ∈ trace, sign.subject? = some (.build build) := by
  obtain ⟨began, asked, ended, state, rfl⟩ := h.frame
  exact ⟨.called (.beforeBuild build), by simp [Reporter.signs], rfl⟩

/-- **The build**: its start and its finish, once each. -/
theorem told_build (h : Framed (Engine.reporter request start) registry build inner trace)
    (hd : List.Forall₂ (Stream.Delivered request.listeners) (trace.filterMap Sign.sent?) outcomes)
    (hu : ∀ o ∈ outcomes, o.broken = false) :
    ((Stream.told pick outcomes).filter fun m => decide (m.kind = .build)) =
      (Mark.nested [build.descriptor]).filter (request.listeners.hears pick) := by
  have hp : ∀ hook e, .sent hook e ∈ trace →
      (decide (hook.mark.kind = .build) = true ↔ hook.subject ∈ [Subject.build build]) := by
    intro hook e he
    rw [decide_eq_true_iff, List.mem_singleton]
    constructor
    · intro hk
      rcases h.subject_cases he rfl with hb | hi
      · exact hb
      · obtain ⟨run, hr, -⟩ := h.completed.signs _ hi _ rfl
        exact absurd (EventKind.ofOperation_eq_build.mp hk) (kind_of_task? hr)
    · intro hb
      unfold Mark.kind Hook.mark
      rw [hb]
      rfl
  obtain ⟨began, ended, state, hf⟩ := h.filter_build
  rw [h.told_filter hd hu hp, hf [], Sign.filter_isAbout_nil, List.nil_append, Sign.marks_append,
    List.filter_append, Sign.filter_marks_signs, Sign.filter_marks_signs, ← List.filter_append]
  rfl

/-- **A task**: its start and its finish, between those of the build. -/
theorem told_task (h : Framed (Engine.reporter request start) registry build inner trace)
    (hd : List.Forall₂ (Stream.Delivered request.listeners) (trace.filterMap Sign.sent?) outcomes)
    (hu : ∀ o ∈ outcomes, o.broken = false) {t : TaskRun} (ht : .called (.beforeTask t) ∈ trace)
    (hr : ∀ task, registry.get? t.path = some task → task.action.Renderable) :
    ((Stream.told pick outcomes).filter fun m =>
        decide (m.descriptor.id ∈ [build.id, t.id])) =
      (Mark.nested [build.descriptor, t.descriptor]).filter (request.listeners.hears pick) := by
  have hs : ∀ subject ∈ [Subject.build build, .task t],
      ∃ sign ∈ trace, sign.subject? = some subject := by
    simp only [List.mem_cons, List.not_mem_nil, or_false, forall_eq_or_imp, forall_eq]
    exact ⟨h.build_mem, _, ht, rfl⟩
  obtain ⟨began, ended, state, hf⟩ := h.filter_build
  have hi := h.mem_inner ht rfl rfl
  obtain ⟨before, last, hft, hl⟩ := h.completed.filter_task (h.completed.handed hi rfl rfl)
  rcases hl with ⟨after, tstate, rfl⟩ | ⟨-, task, hg, hn⟩
  · refine (h.told_ids hd hu hs).trans ?_
    rw [hf [.task t], hft]
    simp only [Sign.marks_append, List.filter_append, Sign.filter_marks_signs]
    simp only [← List.filter_append]
    rfl
  · exact absurd (hr task hg) hn

/-- **A test**: its start and its finish, between those of its task. -/
theorem told_test (h : Framed (Engine.reporter request start) registry build inner trace)
    (hd : List.Forall₂ (Stream.Delivered request.listeners) (trace.filterMap Sign.sent?) outcomes)
    (hu : ∀ o ∈ outcomes, o.broken = false) {x : TestRun} (hx : .called (.beforeTest x) ∈ trace)
    (hr : ∀ task, registry.get? x.task.path = some task → task.action.Renderable) :
    ((Stream.told pick outcomes).filter fun m =>
        decide (m.descriptor.id ∈ [build.id, x.task.id, x.id])) =
      (Mark.nested [build.descriptor, x.task.descriptor, x.descriptor]).filter
        (request.listeners.hears pick) := by
  have hi := h.mem_inner hx rfl rfl
  have hbegan := h.began hx rfl rfl
  have hs : ∀ subject ∈ [Subject.build build, .task x.task, .test x],
      ∃ sign ∈ trace, sign.subject? = some subject := by
    simp only [List.mem_cons, List.not_mem_nil, or_false, forall_eq_or_imp, forall_eq]
    exact ⟨h.build_mem, ⟨_, hbegan, rfl⟩, _, hx, rfl⟩
  obtain ⟨began, ended, state, hf⟩ := h.filter_build
  obtain ⟨before, b, a, xstate, last, hft, -, hl⟩ := h.completed.filter_test hi rfl
  rcases hl with ⟨after, tstate, rfl⟩ | ⟨-, task, hg, hn⟩
  · refine (h.told_ids hd hu hs).trans ?_
    rw [hf [.task x.task, .test x], hft]
    simp only [Sign.marks_append, List.filter_append, Sign.filter_marks_signs]
    simp only [← List.filter_append]
    rfl
  · exact absurd (hr task hg) hn

end Framed

namespace Engine

section Opening

variable {request : Request} {run : BuildRun} {requested : Bool} {start : Timestamp}
  {past : List Call} {outcomes : List Stream.Outcome}

/-- What is sent before a build is planned: its start. -/
theorem sent_opening : (opening request run requested start).filterMap Sign.sent? =
    Hook.events request.subscriptions start (.beforeBuild run) := by
  simp only [opening, List.filterMap_cons, List.filterMap_append, filterMap_sent?_signs, Sign.sent?]
  exact List.append_nil _

/-- The hook before the build is called, and no other. -/
theorem called_opening :
    (opening request run requested start).filterMap Sign.called? = [.beforeBuild run] := by
  have hsigns : ((reporter request start).signs start (.beforeBuild run)).filterMap Sign.called? =
      [.beforeBuild run] := by
    rw [Reporter.signs, List.filterMap_cons, List.filterMap_map]
    exact congrArg (_ :: ·) (List.filterMap_eq_nil_iff.mpr fun _ _ => rfl)
  simp only [opening, List.filterMap_cons, List.filterMap_append, Sign.called?, hsigns]
  exact List.append_nil _

theorem events_of_opening {b : BuildResult} (ht : b.trace = opening request run requested start) :
    b.events = Hook.events request.subscriptions start (.beforeBuild run) :=
  (congrArg _ ht).trans sent_opening

theorem hooks_of_opening {b : BuildResult} (ht : b.trace = opening request run requested start) :
    b.hooks = [.beforeBuild run] :=
  (congrArg _ ht).trans called_opening

/-- With its start the build is in flight, and nothing else. -/
theorem feedAll_opening (hn : request.listeners.NeverClose) (past : List Call) :
    let fed := Stream.feedAll request.listeners past {}
      (Hook.events request.subscriptions start (.beforeBuild run))
    fed.1.phase = .active ∧ fed.1.inFlight = 1 := by
  have hstart : Hook.events request.subscriptions start (.beforeBuild run) =
      .progress ⟨start, run.descriptor, .started⟩ ::
        Hook.statusIf request.subscriptions start
          (.started run.descriptor.id run.descriptor.displayName) := rfl
  rw [hstart, Stream.feedAll_cons]
  dsimp only
  rw [(Stream.feed_of_neverClose hn rfl past).1]
  unfold Hook.statusIf
  split
  · rw [Stream.feedAll_cons]
    dsimp only
    rw [(Stream.feed_of_neverClose hn rfl _).1]
    exact ⟨rfl, rfl⟩
  · exact ⟨rfl, rfl⟩

/-- Listeners are told of its start. -/
theorem told_opening {pick : EventKind → Nat}
    (hd : List.Forall₂ (Stream.Delivered request.listeners)
      (Hook.events request.subscriptions start (.beforeBuild run)) outcomes)
    (hu : ∀ o ∈ outcomes, o.broken = false) :
    ((Stream.told pick outcomes).filter fun m => decide (m.kind = .build)) =
      [Mark.mk run.descriptor true].filter (request.listeners.hears pick) := by
  have hmarks : (Hook.events request.subscriptions start (.beforeBuild run)).filterMap Event.mark? =
      [⟨run.descriptor, true⟩] := by
    rw [Hook.filterMap_mark?_events]
    rfl
  have hbuild : [Mark.mk run.descriptor true].filter (fun m => decide (m.kind = .build)) =
      [⟨run.descriptor, true⟩] := rfl
  rw [Stream.told_of_delivered hd hu, List.filter_comm, hmarks, hbuild]

end Opening

theorem mem_trace_of_mem_hooks {result : BuildResult} {hook : Hook} (h : hook ∈ result.hooks) :
    .called hook ∈ result.trace := by
  obtain ⟨sign, hs, hc⟩ := List.mem_filterMap.mp h
  rwa [← Sign.eq_called hc]

/-- **What a client is told of its build.**  Whatever the request asks for and in whatever order
the workers take their steps, no event is refused.  Unless the build breaks down, the stream is
closed at the end with nothing in flight.

If all reports of listeners that fail get through, listeners chosen for each kind, `pick` saying
which, are told of the build once, and of every task and test that began: of its start and its
finish, inside those of the operations around it.

A build that breaks down has no summary.  The stream is left open, with the build in flight, and
listeners are told of its start only; no task and no test has begun.

The ids of a build are told apart by a counter of 64 bits, so a build may take as many of them as
the counter has values. -/
theorem buildAlong_delivers (e : Engine) (request : Request) (g : Generator) (requested : Bool)
    (start : Timestamp) (choices : List Choice) (past : List Call)
    (hopen : request.listeners.NeverClose)
    (hb : (e.buildAlong choices request g requested start).stamps.length ≤ UInt64.size) :
    let asked := request.cancellation.isSome && requested
    let result := e.buildAlong choices request g requested start
    let build := runOf g
    let (final, outcomes) := Stream.feedAll request.listeners past {} result.events
    (∀ o ∈ outcomes, o.violation = none) ∧
    (request.listeners.NeverBreak → ∀ o ∈ outcomes, o.broken = false) ∧
    (¬ e.BreaksDown request asked → final.phase = .closed ∧ final.inFlight = 0) ∧
    (e.BreaksDown request asked → final.phase = .active ∧ final.inFlight = 1 ∧
      result.summary? = none ∧ result.hooks = [.beforeBuild build]) ∧
    ((∀ o ∈ outcomes, o.broken = false) → ∀ pick,
      let told := Stream.told pick outcomes
      let hears := request.listeners.hears pick
      (¬ e.BreaksDown request asked → (told.filter fun m => decide (m.kind = .build)) =
          (Mark.nested [build.descriptor]).filter hears) ∧
        (e.BreaksDown request asked → (told.filter fun m => decide (m.kind = .build)) =
          [Mark.mk build.descriptor true].filter hears) ∧
        (∀ t : TaskRun, .beforeTask t ∈ result.hooks →
          (∀ task, e.registry.get? t.path = some task → task.action.Renderable) →
          (told.filter fun m => decide (m.descriptor.id ∈ [build.id, t.id])) =
            (Mark.nested [build.descriptor, t.descriptor]).filter hears) ∧
        ∀ x : TestRun, .beforeTest x ∈ result.hooks →
          (∀ task, e.registry.get? x.task.path = some task → task.action.Renderable) →
          (told.filter fun m => decide (m.descriptor.id ∈ [build.id, x.task.id, x.id])) =
            (Mark.nested [build.descriptor, x.task.descriptor, x.descriptor]).filter hears) := by
  intro asked result build
  have hdown : result.summary? = none ↔ e.BreaksDown request asked :=
    summary?_eq_none_iff e request g requested start choices
  have hunbroken : request.listeners.NeverBreak →
      ∀ o ∈ (Stream.feedAll request.listeners past {} result.events).2, o.broken = false :=
    fun hn o ho => Stream.broken_feedAll hn ho
  rcases framed_cases hb with ⟨summary, inner, hs, h⟩ | ⟨hs, ht⟩
  · have hup : ¬ e.BreaksDown request asked := fun hd =>
      Option.some_ne_none _ (hs.symm.trans (hdown.mpr hd))
    obtain ⟨hclosed, hflight, hd⟩ := Stream.feedAll_orderly hopen h.orderly past
    refine ⟨Stream.violation_of_delivered hd, hunbroken, fun _ => ⟨hclosed, hflight⟩,
      fun hd => absurd hd hup, fun hu pick => ⟨fun _ => h.told_build hd hu,
        fun hd => absurd hd hup, fun t ht hr => ?_, fun x hx hr => ?_⟩⟩
    · exact h.told_task hd hu (mem_trace_of_mem_hooks ht) hr
    · exact h.told_test hd hu (mem_trace_of_mem_hooks hx) hr
  · have hd : e.BreaksDown request asked := hdown.mp hs
    have ht : result.trace = opening request build requested start := ht
    obtain ⟨rest, horderly⟩ : ∃ rest, Orderly (result.events ++ rest) := buildAlong_orderly hb
    have hall := Stream.feedAll_beginning hopen horderly past
    have hevents : result.events = Hook.events request.subscriptions start (.beforeBuild build) :=
      events_of_opening ht
    have hhooks : result.hooks = [.beforeBuild build] := hooks_of_opening ht
    obtain ⟨hphase, hflight⟩ := feedAll_opening hopen past
    rw [hevents] at hall hunbroken ⊢
    refine ⟨Stream.violation_of_delivered hall, hunbroken, fun hup => absurd hd hup,
      fun _ => ⟨hphase, hflight, hs, hhooks⟩, fun hu pick => ⟨fun hup => absurd hd hup,
        fun _ => told_opening hall hu, fun t ht => ?_, fun x hx => ?_⟩⟩
    · rw [hhooks] at ht
      exact nomatch List.mem_singleton.mp ht
    · rw [hhooks] at hx
      exact nomatch List.mem_singleton.mp hx

/-! ### A build of one task with one test -/

namespace Sample

/-- An engine with a task that runs a test. -/
def engine : Engine where
  registry := .ofTasks
    [{ path := ":app", action := .test "compiles" none .execute fun _ => .execute }] []
  options := { concurrency := 1 }
  lost := fun _ => "task 1 panicked"

/-- The engine with one permit more than there can be. -/
def overdrawn : Engine := { engine with options := { concurrency := 2305843009213693952 } }

/-- A listener that does nothing. -/
def listener (name : String) : Listener := ⟨name, fun _ _ => {}⟩

/-- A request for the task, with listeners for everything but the status line. -/
def request : Request where
  tasks := some [":app"]
  listeners :=
    { build := [listener "build"], task := [listener "task"], test := [listener "test"] }

/-- The scheduler hands the task over, its worker runs it, and the wave ends. -/
def choices : List Choice :=
  [.scheduler, .scheduler] ++ List.replicate 19 (.worker 0) ++ [.scheduler]

/-- The build. -/
def result : BuildResult := engine.buildAlong choices request ⟨1, 1⟩ false .epoch

/-- The run of the test. -/
def test : TestRun :=
  ⟨⟨1, 3⟩, "compiles", none, ⟨⟨1, 2⟩, ":app", none, ⟨⟨1, 1⟩⟩⟩⟩

theorem passive : request.listeners.Passive := by
  intro kind l hl past sight
  cases kind with
  | status => exact nomatch hl
  | _ =>
    rw [List.mem_singleton.mp hl]
    rfl

theorem renderable : ∀ task, engine.registry.get? ":app" = some task → task.action.Renderable := by
  intro task hg he
  cases hg
  cases he with
  | test passed he => cases he

theorem result_eq :
    result = engine.buildBy (fun su s => s.run su choices) request ⟨1, 1⟩ false .epoch := by
  refine buildAlong_of_isFinished ?_
  intro plan hp
  cases hp
  rfl

end Sample

/-- The listeners are told of the build, the task and the test inside each other. -/
theorem delivers_sample :
    let fed := Stream.feedAll Sample.request.listeners [] {} Sample.result.events
    Sample.request.listeners.NeverClose ∧ Sample.result.stamps.length ≤ UInt64.size ∧
      (∀ o ∈ fed.2, o.broken = false) ∧ .beforeTest Sample.test ∈ Sample.result.hooks ∧
      (Stream.told (fun _ => 0) fed.2).filter (fun m => decide (m.descriptor.id ∈
          [Sample.test.task.build.id, Sample.test.task.id, Sample.test.id])) =
        Mark.nested [Sample.test.task.build.descriptor, Sample.test.task.descriptor,
          Sample.test.descriptor] := by
  have hb : Sample.result.stamps.length ≤ UInt64.size := by
    rw [Sample.result_eq]
    decide
  have hm : .beforeTest Sample.test ∈ Sample.result.hooks := by
    rw [Sample.result_eq]
    exact .tail _ (.tail _ (.head _))
  obtain ⟨-, hunbroken, -, -, h⟩ := buildAlong_delivers Sample.engine Sample.request ⟨1, 1⟩ false
    .epoch Sample.choices [] Sample.passive.neverClose hb
  have hu := hunbroken Sample.passive.neverBreak
  exact ⟨Sample.passive.neverClose, hb, hu, hm, (h hu fun _ => 0).2.2.2 Sample.test hm Sample.renderable⟩

/-- **A build may not come to its finish**: one that asks for one permit more than there can be
leaves its stream open, with the build in flight. -/
theorem delivers_overdrawn :
    ¬ ∀ (e : Engine) (request : Request) (g : Generator) (requested : Bool) (start : Timestamp)
      (choices : List Choice), request.listeners.NeverClose →
      (e.buildAlong choices request g requested start).stamps.length ≤ UInt64.size →
      let fed := Stream.feedAll request.listeners [] {}
        (e.buildAlong choices request g requested start).events
      fed.1.phase = .closed ∧ fed.1.inFlight = 0 := by
  intro hall
  have hclosed := hall Sample.overdrawn Sample.request ⟨1, 1⟩ false .epoch [] Sample.passive.neverClose
    (by decide)
  exact absurd hclosed.1 (by decide)

end Engine

end BuildStream
