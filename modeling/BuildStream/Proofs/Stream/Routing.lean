/-
# Who is told of a finish

Two descriptors meet when an operation finishes: the one of the finish, and the one that the
operation started with.  They have the same id, and nothing makes them agree in anything else.

* The finish is told to the listeners for the kind that the operation **started** as, which is
  that of the latest start of its id among what was accepted (`Record.begun?`, `Remembers`).
* The stream ends with the finish if the finish itself is one of a **build**.

So a finish is told to the listeners for its own kind, and ends the stream together with the
listeners of the build, where the two descriptors have the same kind (`feed_finish`).  Where they
have not, task listeners may be told of the finish that ends the stream (`feed_finish_otherKind`).
-/
import BuildStream.Proofs.Stream
import BuildStream.Proofs.Stream.History

namespace BuildStream

/-! ## 1. The latest start of an operation -/

namespace Turn

/-- What a call tells about the operation of an id, if it starts it. -/
def startOf? (id : OperationId) : Turn → Option Descriptor
  | event (.progress ⟨_, d, .started⟩) _ => if d.id = id then some d else none
  | _ => none

end Turn

namespace Record

/-- What the latest start of an id told about its operation. -/
def begun? (log : Record) (id : OperationId) : Option Descriptor :=
  log.reverse.findSome? (Turn.startOf? id)

theorem begun?_concat (log : Record) (turn : Turn) (id : OperationId) :
    begun? (log ++ [turn]) id = (turn.startOf? id).or (log.begun? id) := by
  rw [begun?, List.reverse_concat, List.findSome?_cons]
  cases turn.startOf? id <;> rfl

end Record

namespace Stream

variable {log : Record} {s t : Stream} {notice : Notice}

/-! ## 2. Operations in flight -/

/-- Whatever the phase was, an event that is accepted is processed by an active stream. -/
theorem process_of_accept {e : Event} (ha : s.accept e = .ok (t, notice)) :
    { s with phase := .active }.process e = .ok (t, notice) := by
  obtain ⟨phase, operations, statuses, nextSerial⟩ := s
  cases phase with
  | closed => exact nomatch ha
  | active => exact ha
  | idle =>
    by_cases hb : e.isBuildStart = true
    · simpa [accept, hb] using ha
    · simp [accept, hb] at ha

theorem accepts_of_accept {e : Event} (ha : s.accept e = .ok (t, notice)) : Accepts s e t := by
  have hp := process_of_accept ha
  rcases process_cases (s := { s with phase := .active }) rfl e
    with ⟨d, -, -, hr⟩ | ⟨-, t', notice', ht, hacc⟩
  · exact nomatch hr.symm.trans hp
  · obtain ⟨rfl, -⟩ := Prod.mk.inj (Except.ok.inj (ht.symm.trans hp))
    exact ⟨hacc.phase, hacc.nodup, hacc.ids⟩

/-- **A finish that is accepted** takes its operation out of flight and tells of that operation;
the finish of a build ends the stream. -/
theorem finish_eq_ok {time : Timestamp} {d : Descriptor} {r : OperationResult}
    (hf : s.finish ⟨time, d, .finished r⟩ = .ok (t, notice)) :
    ∃ op text, s.operation? d.id = some op ∧ notice = .operation text op (.finished r) ∧
      t.phase = (if d.kind = .build then .closed else s.phase) ∧
      ∀ i op', t.operation? i = some op' → s.operation? i = some op' := by
  unfold finish at hf
  split at hf
  · exact nomatch hf
  · next op hop =>
    obtain ⟨ht, rfl⟩ := Prod.mk.inj (Except.ok.inj hf)
    refine ⟨op, _, hop, rfl, ?_, fun i op' hi => ?_⟩
    · rw [← ht]
      split <;> rfl
    · rw [← ht] at hi
      split at hi
      · exact nomatch hi
      · by_cases hid : i = d.id
        · rw [hid] at hi
          exact nomatch (lookup_without_self d.id s.operations).symm.trans hi
        · exact (lookup_without hid s.operations).symm.trans hi

/-- What is in flight has the descriptor of its latest start. -/
def Remembers (log : Record) (s : Stream) : Prop :=
  ∀ id op, s.operation? id = some op → log.begun? id = some op.descriptor

theorem remembers_nil : Remembers [] {} := fun _ _ h => nomatch h

theorem Remembers.accept (h : Remembers log s) {e : Event} (ha : s.accept e = .ok (t, notice)) :
    Remembers (log ++ [.event e]) t := by
  intro id op hop
  have hp := process_of_accept ha
  rw [Record.begun?_concat]
  cases e with
  | status e =>
    obtain ⟨rfl, -⟩ := Prod.mk.inj (Except.ok.inj hp)
    exact h id op hop
  | progress e =>
    obtain ⟨time, d, progress⟩ := e
    cases progress with
    | started =>
      have ht := congrArg Prod.fst (Except.ok.inj hp)
      change _ = t at ht
      rw [← ht, operation?_start] at hop
      by_cases hid : d.id = id
      · rw [if_pos hid] at hop
        obtain rfl := Option.some.inj hop
        simp [Turn.startOf?, hid]
      · rw [if_neg hid] at hop
        simpa [Turn.startOf?, hid] using h id op hop
    | finished r =>
      obtain ⟨-, -, -, -, -, hkeep⟩ := finish_eq_ok hp
      exact h id op (hkeep id op hop)

theorem kept_remembers : Kept Remembers where
  close _ := fun _ _ h => nomatch h
  accept h ha := h.accept ha

/-! ## 3. Finishes -/

/-- **Who is told of a finish, and when it ends the stream.**

After any calls of a stream, a finish that is accepted is of an operation that started.  It is told
to exactly the listeners for the kind that the operation started as, each once and in order, as long
as no report breaks.  The stream is closed after it exactly if the finish is one of a build, or if
one of those listeners closed the stream. -/
theorem feed_finish (listeners : Listeners) (turns : List Turn) (past : List Call) {e : Event}
    {d : Descriptor} (he : e.finished? = some d)
    (ha : ((ofTurns listeners turns).feed listeners past e).2.violation = none) :
    let s := ofTurns listeners turns
    let o := (s.feed listeners past e).2
    ∃ begun notice, (record listeners {} turns).begun? d.id = some begun ∧
      notice.kind = .ofOperation begun.kind ∧
      o.Reaches listeners.diagnostics (listeners.seats notice) ∧
      (o.broken = false → o.calls.map (·.listener) =
        (listeners.ofKind (.ofOperation begun.kind)).map (·.name)) ∧
      (listeners.NeverBreak → o.broken = false) ∧
      ((s.feed listeners past e).1.phase = .closed ↔
        d.kind = .build ∨ ∃ c ∈ o.calls, c.closes = true) := by
  intro s o
  have hr : Remembers (record listeners {} turns) s := kept_remembers.turns remembers_nil turns
  cases hacc : s.accept e with
  | error v =>
    rw [feed_of_error hacc] at ha
    exact nomatch ha
  | ok accepted =>
    obtain ⟨t, notice⟩ := accepted
    have htells := tells_feed hacc listeners past
    cases e with
    | status e => cases he
    | progress e =>
      obtain ⟨time, d', progress⟩ := e
      cases progress with
      | started => cases he
      | finished r =>
        obtain rfl : d' = d := Option.some.inj he
        obtain ⟨op, text, hop, rfl, hphase, -⟩ := finish_eq_ok (process_of_accept hacc)
        refine ⟨op.descriptor, _, hr d'.id op hop, rfl, htells.toReaches, fun hb => ?_,
          fun hn => broken_feed hn s past _, ?_⟩
        · have hnames := congrArg (List.map Prod.fst) (htells.toReaches.told hb)
          simp only [List.map_map, Function.comp_def] at hnames
          exact hnames
        · rw [htells.phase, hphase]
          split <;> simp [*, o]

/-! A stream with a task in flight, and a finish under the id of the task that is one of a build. -/

namespace Mixed

/-- The build. -/
def build : Descriptor := .ofBuild ⟨.build, 1, 1⟩

/-- The task. -/
def task : Descriptor := .ofTask ⟨.task, 1, 2⟩ ":app" none (some build.id)

/-- A start. -/
def start (d : Descriptor) : Turn := .event (.progress ⟨.epoch, d, .started⟩)

/-- What the finish tells: the id of the task, and the rest of a build. -/
def ended : Descriptor := .ofBuild task.id

/-- The finish. -/
def finish : Event := .progress ⟨.epoch, ended, .finished ⟨.epoch, .epoch, .success false⟩⟩

/-- A listener for builds and one for tasks. -/
def listeners : Listeners where
  build := [⟨"of builds", fun _ _ => {}⟩]
  task := [⟨"of tasks", fun _ _ => {}⟩]

end Mixed

/-- The task listener is told of the finish, and the stream is closed after it. -/
theorem feed_finish_mixed :
    let s := ofTurns Mixed.listeners [Mixed.start Mixed.build, Mixed.start Mixed.task]
    Mixed.finish.finished? = some Mixed.ended ∧
      (s.feed Mixed.listeners [] Mixed.finish).2.violation = none ∧
      (s.feed Mixed.listeners [] Mixed.finish).2.calls.map (·.listener) = ["of tasks"] ∧
      (s.feed Mixed.listeners [] Mixed.finish).1.phase = .closed := by
  intro s
  have he : Mixed.finish.finished? = some Mixed.ended := rfl
  have ha : (s.feed Mixed.listeners [] Mixed.finish).2.violation = none := rfl
  obtain ⟨begun, notice, hbegun, -, -, hcalls, -, hclosed⟩ := feed_finish Mixed.listeners
    [Mixed.start Mixed.build, Mixed.start Mixed.task] [] he ha
  obtain rfl : Mixed.task = begun := Option.some.inj hbegun
  exact ⟨he, ha, hcalls rfl, hclosed.mpr (.inl rfl)⟩

/-- **A finish need not be told to the listeners for its own kind**, and the stream may end with
one that the build's listeners are not told of. -/
theorem feed_finish_otherKind :
    ¬ ∀ (listeners : Listeners) (turns : List Turn) (e : Event) (d : Descriptor),
      e.finished? = some d →
      ((ofTurns listeners turns).feed listeners [] e).2.violation = none →
      let told := ((ofTurns listeners turns).feed listeners [] e).2.calls.map (·.listener)
      told = (listeners.ofKind e.kind).map (·.name) ∧
        (((ofTurns listeners turns).feed listeners [] e).1.phase = .closed ↔
          told = listeners.build.map (·.name)) := by
  intro h
  obtain ⟨htold, -⟩ := h Mixed.listeners [Mixed.start Mixed.build, Mixed.start Mixed.task]
    Mixed.finish Mixed.ended rfl rfl
  have hne : ["of tasks"] ≠ ["of builds"] := by decide
  exact hne htold

end Stream

end BuildStream
