/-
# What a subscription leaves out

A client that subscribed to less is sent less and nothing else.  Of everything that would be sent
to a client with all subscriptions, it gets what is left when the progress of tasks, the progress of
tests and the changes of the status line are taken out where it did not ask for them: the same
events with the same ids, parents and results, in the same order (`forwarded_eq_filter`).

A hook decides twice: whether to forward anything, and then whether to send progress.  The first
decision adds nothing to the second, and so every hook is a start or a finish (`events_shape`).

Two clients do not look at the clock at the same moments.  The clock is read for the time of an
event, and for the end of a run whose result cannot be determined; `Event.offClock` sets both
aside.
-/
import BuildStream.Forwarding

namespace BuildStream

/-! ## 1. What is wanted -/

/-- Whether an event is left to a client; those of the build always are. -/
def Subscriptions.keeps (s : Subscriptions) (e : Event) : Bool :=
  match e.kind with
  | .build => true
  | .task => s.task
  | .test => s.test
  | .status => s.status

theorem Subscriptions.keeps_progress (s : Subscriptions) (e : ProgressEvent) :
    s.keeps (.progress e) = s.wants e.descriptor.kind := by
  have hk : (Event.progress e).kind = .ofOperation e.descriptor.kind := rfl
  rw [keeps, hk]
  cases e.descriptor.kind <;> rfl

theorem Subscriptions.all_wants (kind : OperationKind) : all.wants kind = true := by
  cases kind <;> rfl

/-! ## 2. What the clock shows -/

/-- A result without what the clock showed when it was made, which is the end of an operation whose
result could not be determined. -/
def OperationResult.offClock (d : Descriptor) (r : OperationResult) : OperationResult :=
  if r.ending.failures.map (·.message) = [(Hook.undetermined d).message] then
    { r with endTime := .epoch }
  else r

/-- A transition without what the clock showed. -/
def Progress.offClock (d : Descriptor) : Progress → Progress
  | started => started
  | finished r => finished (r.offClock d)

/-- An event without what the clock showed. -/
def Event.offClock : Event → Event
  | progress ⟨_, d, p⟩ => progress ⟨.epoch, d, p.offClock d⟩
  | status ⟨_, change⟩ => status ⟨.epoch, change⟩

namespace Hook

variable (s : Subscriptions) (now now' : Timestamp)

/-! ## 3. Starts and finishes -/

theorem started_eq_nil_iff (d : Descriptor) :
    started s now d = [] ↔ forwards s d.kind = false := by
  simp [started, progressIf, statusIf, forwards]

theorem finished_eq_nil_iff (d : Descriptor) (r : OperationResult) :
    finished s now d r = [] ↔ forwards s d.kind = false := by
  simp [finished, progressIf, statusIf, forwards, and_comm]

/-- To ask first whether anything is wanted of a start changes nothing. -/
theorem if_forwards_started (d : Descriptor) :
    (if forwards s d.kind then started s now d else []) = started s now d := by
  split
  · rfl
  · next h => exact ((started_eq_nil_iff s now d).mpr (Bool.eq_false_iff.mpr h)).symm

/-- To ask first whether anything is wanted of a finish changes nothing. -/
theorem if_forwards_finished (d : Descriptor) (r : OperationResult) :
    (if forwards s d.kind then finished s now d r else []) = finished s now d r := by
  split
  · rfl
  · next h => exact ((finished_eq_nil_iff s now d r).mpr (Bool.eq_false_iff.mpr h)).symm

theorem progressIf_eq_filter (d : Descriptor) (p : Progress) :
    progressIf (s.wants d.kind) now d p =
      (progressIf (Subscriptions.all.wants d.kind) now d p).filter s.keeps := by
  have hk : s.keeps (.progress ⟨now, d, p⟩) = s.wants d.kind := s.keeps_progress _
  rw [Subscriptions.all_wants, progressIf, progressIf, if_pos rfl, List.filter_cons, hk,
    List.filter_nil]

theorem statusIf_eq_filter (change : StatusChange) :
    statusIf s now change = (statusIf .all now change).filter s.keeps := by
  have hk : s.keeps (.status ⟨now, change⟩) = s.status := rfl
  have hall : Subscriptions.all.status = true := rfl
  rw [statusIf, statusIf, if_pos hall, List.filter_cons, hk, List.filter_nil]

theorem started_eq_filter (d : Descriptor) :
    started s now d = (started .all now d).filter s.keeps := by
  rw [started, started, List.filter_append, ← progressIf_eq_filter, ← statusIf_eq_filter]

theorem finished_eq_filter (d : Descriptor) (r : OperationResult) :
    finished s now d r = (finished .all now d r).filter s.keeps := by
  rw [finished, finished, List.filter_append, ← progressIf_eq_filter, ← statusIf_eq_filter]

theorem map_offClock_started (d : Descriptor) :
    (started s now d).map Event.offClock = (started s now' d).map Event.offClock := by
  unfold started progressIf statusIf
  cases s.wants d.kind <;> cases s.status <;> rfl

theorem map_offClock_finished (d : Descriptor) {r r' : OperationResult}
    (hr : r.offClock d = r'.offClock d) :
    (finished s now d r).map Event.offClock = (finished s now' d r').map Event.offClock := by
  unfold finished progressIf statusIf
  cases s.wants d.kind <;> cases s.status <;> simp [Event.offClock, Progress.offClock, hr]

/-! ## 4. One hook -/

/-- The clock is only seen in a result that could not be determined, as its end. -/
theorem resultOf_offClock (d : Descriptor) (state : RunState) :
    (resultOf now d state).offClock d = (resultOf now' d state).offClock d := by
  unfold resultOf
  cases state.result? with
  | some r => rfl
  | none => simp [OperationResult.offClock, Ending.failures]

/-- **A hook is a start or a finish** of some operation, whatever the client wants and whatever it
asks first; the result of a finish does not depend on what is wanted, and on the clock only in what
the clock shows. -/
theorem events_shape (h : Hook) :
    (∃ d, ∀ s now, h.events s now = started s now d) ∨
      ∃ (d : Descriptor) (r : Timestamp → OperationResult),
        (∀ now now', (r now).offClock d = (r now').offClock d) ∧
          ∀ s now, h.events s now = finished s now d (r now) := by
  cases h with
  | beforeBuild b => exact .inl ⟨b.descriptor, fun _ _ => rfl⟩
  | afterBuild b state =>
    exact .inr ⟨b.descriptor, fun _ => state.result, fun _ _ => rfl, fun _ _ => rfl⟩
  | beforeTask t => exact .inl ⟨t.descriptor, fun s now => if_forwards_started s now t.descriptor⟩
  | afterTask t state =>
    exact .inr ⟨t.descriptor, (resultOf · t.descriptor state),
      fun now now' => resultOf_offClock now now' t.descriptor state,
      fun s now => if_forwards_finished s now t.descriptor _⟩
  | beforeTest t => exact .inl ⟨t.descriptor, fun s now => if_forwards_started s now t.descriptor⟩
  | afterTest t state =>
    exact .inr ⟨t.descriptor, (resultOf · t.descriptor state),
      fun now now' => resultOf_offClock now now' t.descriptor state,
      fun s now => if_forwards_finished s now t.descriptor _⟩

/-- **The events of a hook** are those for all subscriptions without what is not wanted. -/
theorem events_eq_filter (h : Hook) : h.events s now = (h.events .all now).filter s.keeps := by
  obtain ⟨d, hd⟩ | ⟨d, r, -, hd⟩ := events_shape h
  · rw [hd, hd]
    exact started_eq_filter s now d
  · rw [hd, hd]
    exact finished_eq_filter s now d (r now)

/-- With all subscriptions every hook is told, by its progress and by its status. -/
theorem length_events_all (h : Hook) : (h.events .all now).length = 2 := by
  have hstatus : Subscriptions.all.status = true := rfl
  obtain ⟨d, hd⟩ | ⟨d, r, -, hd⟩ := events_shape h
  · rw [hd]
    simp [started, progressIf, statusIf, Subscriptions.all_wants, hstatus]
  · rw [hd]
    simp [finished, progressIf, statusIf, Subscriptions.all_wants, hstatus]

/-- **The clock** makes no difference to the events of a hook but in what it shows. -/
theorem map_offClock_events (h : Hook) :
    (h.events s now).map Event.offClock = (h.events s now').map Event.offClock := by
  obtain ⟨d, hd⟩ | ⟨d, r, hr, hd⟩ := events_shape h
  · rw [hd, hd]
    exact map_offClock_started s now now' d
  · rw [hd, hd]
    exact map_offClock_finished s now now' d (hr now now')

/-! ## 5. All hooks -/

/-- The events that are sent for hooks one after the other, by a clock that shows a time for each
of them. -/
def forwarded (clock : Nat → Timestamp) (hooks : List Hook) : List Event :=
  hooks.zipIdx.flatMap fun h => h.1.events s (clock h.2)

/-- **What a client is sent** for any hooks is what it would be sent with all subscriptions, without
the progress of tasks, the progress of tests and the changes of the status line that it did not ask
for.  With the same clock these are the same events; with two clocks they are the same but for what
the clocks show.  With all subscriptions two events are sent for every hook. -/
theorem forwarded_eq_filter (clock clock' : Nat → Timestamp) (hooks : List Hook) :
    forwarded s clock hooks = (forwarded .all clock hooks).filter s.keeps ∧
      (forwarded s clock hooks).map Event.offClock =
        ((forwarded .all clock' hooks).filter s.keeps).map Event.offClock ∧
      (forwarded .all clock hooks).length = 2 * hooks.length := by
  have hfilter (clock : Nat → Timestamp) :
      forwarded s clock hooks = (forwarded .all clock hooks).filter s.keeps := by
    rw [forwarded, forwarded, List.filter_flatMap]
    congr 1
    funext h
    exact events_eq_filter s (clock h.2) h.1
  refine ⟨hfilter clock, ?_, ?_⟩
  · rw [← hfilter clock', forwarded, forwarded, List.map_flatMap, List.map_flatMap]
    congr 1
    funext h
    exact map_offClock_events s (clock h.2) (clock' h.2) h.1
  · rw [forwarded, List.length_flatMap]
    simp only [length_events_all, List.map_const', List.sum_replicate_nat, List.length_zipIdx]
    exact Nat.mul_comm _ _

end Hook

end BuildStream
