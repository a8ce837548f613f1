/-
# What a stream remembers

A stream can be called in any order: events of any kind are fed to it, and it is closed from
outside or by a listener that is being told.  What comes of the next event is determined by what
counted so far, the events that were accepted and the closes (`record`); an event that was refused
has left nothing behind.

* After a close or the finish of a build everything is refused.  Before that, the first event has
  to start a build; and what finishes has to be running, which means that it started after it last
  finished (`verdict`).
* The phase and the operations in flight say the same of the record (`Recorded`), and the whole
  stream is what one gets from the record alone, with nobody listening.

The invariant is kept by accepting an event (`Recorded.accept`) and by closing
(`Recorded.close`), and whatever else may happen to a stream is made of these two (`Kept.turns`).
-/
import BuildStream.Proofs.Stream.Telling
import Mathlib.Data.List.Nodup

namespace BuildStream

/-! ## 1. Records -/

/-- One call of a stream.  An event finds listeners that remember calls, those of other streams
among them. -/
inductive Turn where
  | event (e : Event) (past : List Call := [])
  | close

namespace Event

/-- Whether the event starts the operation of an id. -/
def isStartOf (id : OperationId) : Event → Bool
  | progress ⟨_, d, .started⟩ => d.id == id
  | _ => false

/-- What the event tells about the operation that it finishes. -/
def finished? : Event → Option Descriptor
  | progress ⟨_, d, .finished _⟩ => some d
  | _ => none

/-- Whether the event finishes the operation of an id. -/
def isFinishOf (id : OperationId) (e : Event) : Bool := e.finished?.any fun d => d.id == id

end Event

namespace Turn

/-- Whether a stream takes no event after the call. -/
def isLast : Turn → Bool
  | event e _ => e.isBuildFinish
  | close => true

/-- Whether the call is an event. -/
def isEvent : Turn → Bool
  | event _ _ => true
  | close => false

/-- Whether the call starts the operation of an id. -/
def isStartOf (id : OperationId) : Turn → Bool
  | event e _ => e.isStartOf id
  | close => false

/-- Whether the call finishes the operation of an id. -/
def isFinishOf (id : OperationId) : Turn → Bool
  | event e _ => e.isFinishOf id
  | close => false

end Turn

/-- A start is no finish. -/
theorem Turn.isFinishOf_of_isStartOf {turn : Turn} {id : OperationId}
    (h : turn.isStartOf id = true) : turn.isFinishOf id = false := by
  cases turn with
  | close => rfl
  | event e past =>
    cases e with
    | status e => rfl
    | progress e =>
      obtain ⟨time, descriptor, progress⟩ := e
      cases progress with
      | started => rfl
      | finished r => exact nomatch h

/-- What counted of the calls of a stream: the events that were accepted, and the closes. -/
abbrev Record := List Turn

namespace Record

/-- The stream was closed, or its build finished. -/
def Ended (log : Record) : Prop := ∃ turn ∈ log, turn.isLast = true

/-- No event was accepted so far. -/
def Silent (log : Record) : Prop := ∀ turn ∈ log, turn.isEvent = false

/-- The operation of an id started and did not finish after that. -/
def Running (log : Record) (id : OperationId) : Prop :=
  ∃ later ∈ log.tails, later.head?.any (·.isStartOf id) = true ∧
    ∀ turn ∈ later, turn.isFinishOf id = false

instance (log : Record) : Decidable log.Ended :=
  inferInstanceAs (Decidable (∃ turn ∈ log, turn.isLast = true))

instance (log : Record) : Decidable log.Silent :=
  inferInstanceAs (Decidable (∀ turn ∈ log, turn.isEvent = false))

instance (log : Record) (id : OperationId) : Decidable (log.Running id) :=
  inferInstanceAs (Decidable (∃ later ∈ log.tails, later.head?.any (·.isStartOf id) = true ∧
    ∀ turn ∈ later, turn.isFinishOf id = false))

/-- Why the next event is refused; it is accepted if there is no reason. -/
def refusal (log : Record) (e : Event) : Option StreamViolation :=
  if log.Ended then some (.afterClose e.text)
  else if log.Silent ∧ e.isBuildStart = false then some (.beforeStart e.text)
  else
    match e.finished? with
    | some d => if log.Running d.id then none else some (.orphanFinish d.displayName)
    | none => none

/-- The phase of a stream with the record. -/
def phase (log : Record) : Phase :=
  if log.Ended then .closed else if log.Silent then .idle else .active

variable {log : Record} {turn : Turn} {id : OperationId}

theorem ended_concat : Ended (log ++ [turn]) ↔ log.Ended ∨ turn.isLast = true := by
  simp [Ended, or_and_right, exists_or]

theorem silent_concat : Silent (log ++ [turn]) ↔ log.Silent ∧ turn.isEvent = false := by
  simp [Silent, or_imp, forall_and]

/-- What runs after one more call: what it starts, and what ran and is not finished by it. -/
theorem running_concat : Running (log ++ [turn]) id ↔
    turn.isStartOf id = true ∨ log.Running id ∧ turn.isFinishOf id = false := by
  simp only [Running, List.mem_tails, List.suffix_concat_iff]
  constructor
  · rintro ⟨later, rfl | ⟨l, rfl, hl⟩, hs, hf⟩
    · exact nomatch hs
    · cases l with
      | nil => exact .inl (by simpa using hs)
      | cons t l =>
        refine .inr ⟨⟨t :: l, hl, by simpa using hs, fun x hx => hf x ?_⟩, hf turn ?_⟩
        · exact List.mem_append_left _ hx
        · exact List.mem_append_right _ (List.mem_singleton_self _)
  · rintro (hs | ⟨⟨later, hl, hs, hf⟩, ht⟩)
    · refine ⟨[turn], .inr ⟨[], rfl, List.nil_suffix⟩, by simpa using hs, ?_⟩
      simpa using Turn.isFinishOf_of_isStartOf hs
    · refine ⟨later ++ [turn], .inr ⟨later, rfl, hl⟩, ?_, ?_⟩
      · cases later with
        | nil => exact nomatch hs
        | cons t l => exact hs
      · intro x hx
        rcases List.mem_append.mp hx with hx | hx
        · exact hf x hx
        · rw [List.mem_singleton.mp hx]
          exact ht

/-- Nothing runs before the first event. -/
theorem Silent.not_running (h : log.Silent) (id : OperationId) : ¬ log.Running id := by
  rintro ⟨later, hl, hs, -⟩
  cases later with
  | nil => exact nomatch hs
  | cons t later =>
    have ht := h t (((List.mem_tails _ _).mp hl).mem (List.mem_cons_self ..))
    cases t with
    | event e past => exact nomatch ht
    | close => exact nomatch hs

end Record

namespace Stream

/-! ## 2. Calls -/

variable {listeners : Listeners} {log : Record} {s t : Stream}

/-- The stream after a call. -/
def turn (listeners : Listeners) (s : Stream) : Turn → Stream
  | .event e past => (s.feed listeners past e).1
  | .close => s.close

/-- A new stream after some calls. -/
def ofTurns (listeners : Listeners) (turns : List Turn) : Stream :=
  turns.foldl (turn listeners) {}

/-- The closes among some calls of listeners. -/
def closes (calls : List Call) : Record := (calls.filter (·.closes)).map fun _ => .close

/-- What counts of a call: a close, or an event that is accepted, and the closes of the listeners
that are told of it. -/
def counted (listeners : Listeners) (s : Stream) : Turn → Record
  | .event e past =>
    match s.accept e with
    | .error _ => []
    | .ok _ => .event e :: closes (s.feed listeners past e).2.calls
  | .close => [.close]

/-- What counts of some calls. -/
def record (listeners : Listeners) : Stream → List Turn → Record
  | _, [] => []
  | s, turn :: turns =>
    s.counted listeners turn ++ record listeners (s.turn listeners turn) turns

/-! ## 3. The invariant -/

/-- The ids of the operations in flight. -/
def ids (s : Stream) : List OperationId := s.operations.map (·.1)

/-- What the record says of the stream. -/
structure Recorded (log : Record) (s : Stream) : Prop where
  phase : s.phase = log.phase
  nodup : s.ids.Nodup
  flight : ∀ id, id ∈ s.ids ↔ s.phase = .active ∧ log.Running id
  replay : s = ofTurns {} log

theorem ofTurns_concat (turns : List Turn) (turn : Turn) :
    ofTurns listeners (turns ++ [turn]) = (ofTurns listeners turns).turn listeners turn := by
  rw [ofTurns, List.foldl_append]
  rfl

theorem recorded_nil : Recorded [] {} where
  phase := rfl
  nodup := List.nodup_nil
  flight := by simp [ids]
  replay := rfl

theorem Recorded.close (h : Recorded log s) : Recorded (log ++ [.close]) s.close where
  phase := by
    have he : Record.Ended (log ++ [.close]) := Record.ended_concat.mpr (.inr rfl)
    rw [Record.phase, if_pos he]
    rfl
  nodup := List.nodup_nil
  flight := by simp [ids, Stream.close]
  replay := by
    rw [ofTurns_concat, ← h.replay]
    rfl

/-! ## 4. Accepting an event -/

theorem ids_without (id : OperationId) (operations : List (OperationId × Operation)) :
    (without id operations).map (·.1) = (operations.map (·.1)).filter fun i => i != id := by
  rw [without, List.filter_map]
  rfl

theorem mem_ids_iff {id : OperationId} : id ∈ s.ids ↔ ∃ op, s.operation? id = some op := by
  rw [ids, operation?, ← Option.isSome_iff_exists, ← not_iff_not, Bool.not_eq_true,
    Option.isSome_eq_false_iff, Option.isNone_iff_eq_none, List.lookup_eq_none_iff]
  simp only [List.mem_map, not_exists, not_and, bne_iff_ne]
  exact ⟨fun h o ho he => h o ho he.symm, fun h o ho he => h o ho he.symm⟩

/-- What becomes of a stream when it accepts an event. -/
structure Accepts (s : Stream) (e : Event) (t : Stream) : Prop where
  phase : t.phase = if e.isBuildFinish then .closed else .active
  nodup : s.ids.Nodup → t.ids.Nodup
  ids : ∀ id, id ∈ t.ids ↔ e.isBuildFinish = false ∧
    (e.isStartOf id = true ∨ id ∈ s.ids ∧ e.isFinishOf id = false)

theorem accepts_start (hs : s.phase = .active) (time : Timestamp) (d : Descriptor) :
    Accepts s (.progress ⟨time, d, .started⟩) (s.start ⟨time, d, .started⟩).1 := by
  have hids :
      (s.start ⟨time, d, .started⟩).1.ids = (s.ids.filter fun i => i != d.id) ++ [d.id] := by
    simp only [ids, start, List.map_append, ids_without, List.map_cons, List.map_nil]
  refine ⟨hs, fun hn => ?_, fun id => ?_⟩
  · rw [hids]
    exact (hn.filter _).append (List.nodup_singleton _) (by simp)
  · rw [hids, List.mem_append, List.mem_filter, List.mem_singleton]
    by_cases hid : id = d.id
    · simp [hid, Event.isBuildFinish, Event.isStartOf]
    · simp [hid, Ne.symm hid, Event.isBuildFinish, Event.isStartOf, Event.isFinishOf,
        Event.finished?]

/-- A finish is refused if its operation is not in flight, and accepted otherwise. -/
theorem finish_cases (hs : s.phase = .active) (time : Timestamp) (d : Descriptor)
    (r : OperationResult) :
    d.id ∉ s.ids ∧ s.finish ⟨time, d, .finished r⟩ = .error (.orphanFinish d.displayName) ∨
      d.id ∈ s.ids ∧ ∃ t notice, s.finish ⟨time, d, .finished r⟩ = .ok (t, notice) ∧
        Accepts s (.progress ⟨time, d, .finished r⟩) t := by
  cases hop : s.operation? d.id with
  | none =>
    refine .inl ⟨fun hm => ?_, by simp [finish, hop]⟩
    obtain ⟨op, ho⟩ := mem_ids_iff.mp hm
    exact nomatch hop.symm.trans ho
  | some op =>
    refine .inr ⟨mem_ids_iff.mpr ⟨op, hop⟩, ?_⟩
    simp only [finish, hop]
    refine ⟨_, _, rfl, ?_⟩
    by_cases hk : d.kind = .build
    · rw [if_pos hk]
      have hb : Event.isBuildFinish (.progress ⟨time, d, .finished r⟩) = true := by
        simp [Event.isBuildFinish, hk]
      exact ⟨by simp [hb, close], fun _ => List.nodup_nil, by simp [hb, ids, close]⟩
    · rw [if_neg hk]
      have hb : Event.isBuildFinish (.progress ⟨time, d, .finished r⟩) = false := by
        simp [Event.isBuildFinish, hk]
      refine ⟨by simp [hb, hs], fun hn => ?_, fun id => ?_⟩
      · rw [ids, ids_without]
        exact hn.filter _
      · have hf : Event.isFinishOf id (.progress ⟨time, d, .finished r⟩) = (d.id == id) := rfl
        rw [ids, ids_without, List.mem_filter, hf, bne_iff_ne, beq_eq_false_iff_ne, ne_comm]
        simp [hb, ids, Event.isStartOf]

theorem accepts_status (hs : s.phase = .active) (e : StatusEvent) :
    Accepts s (.status e) (s.changeStatus e.change).1 where
  phase := hs
  nodup := id
  ids := fun _ => by
    simp [ids, changeStatus, Event.isBuildFinish, Event.isStartOf, Event.isFinishOf,
      Event.finished?]

/-- **In an active stream** an event is refused exactly if it finishes what is not in flight. -/
theorem process_cases (hs : s.phase = .active) (e : Event) :
    (∃ d, e.finished? = some d ∧ d.id ∉ s.ids ∧
        s.process e = .error (.orphanFinish d.displayName)) ∨
      (∀ d, e.finished? = some d → d.id ∈ s.ids) ∧
        ∃ t notice, s.process e = .ok (t, notice) ∧ Accepts s e t := by
  cases e with
  | status e => exact .inr ⟨(fun _ h => nomatch h), _, _, rfl, accepts_status hs e⟩
  | progress e =>
    obtain ⟨time, d, progress⟩ := e
    cases progress with
    | started => exact .inr ⟨(fun _ h => nomatch h), _, _, rfl, accepts_start hs time d⟩
    | finished r =>
      rcases finish_cases hs time d r with ⟨hm, hf⟩ | ⟨hm, t, notice, hf, ha⟩
      · exact .inl ⟨d, rfl, hm, hf⟩
      · refine .inr ⟨fun d' hd => ?_, t, notice, hf, ha⟩
        obtain rfl : d = d' := Option.some.inj hd
        exact hm

/-- A build start finishes nothing. -/
theorem finished?_of_isBuildStart {e : Event} (h : e.isBuildStart = true) : e.finished? = none := by
  cases e with
  | status e => rfl
  | progress e =>
    obtain ⟨time, d, progress⟩ := e
    cases progress with
    | started => rfl
    | finished r => exact nomatch h

/-- **What the record says of the next event**: whether it is refused, and why. -/
theorem Recorded.accept_cases (h : Recorded log s) (e : Event) :
    (∃ v, s.accept e = .error v ∧ log.refusal e = some v) ∨
      ∃ t notice, s.accept e = .ok (t, notice) ∧ log.refusal e = none ∧ Accepts s e t := by
  have hp := h.phase
  unfold Record.phase at hp
  unfold Record.refusal
  split at hp
  · next he => exact .inl ⟨_, by simp [accept, hp], if_pos he⟩
  · next he =>
    rw [if_neg he]
    split at hp
    · next hsilent =>
      by_cases hb : e.isBuildStart = true
      · -- the phase changes before the event is looked at, and a start is never refused
        have ha : s.accept e = { s with phase := .active }.process e := by simp [accept, hp, hb]
        rw [if_neg (by simp [hb]), ha, finished?_of_isBuildStart hb]
        rcases process_cases (s := { s with phase := .active }) rfl e
          with ⟨d, hd, -⟩ | ⟨-, t, notice, ht, hacc⟩
        · exact nomatch hd.symm.trans (finished?_of_isBuildStart hb)
        · exact .inr ⟨t, notice, ht, rfl, hacc.phase, hacc.nodup, hacc.ids⟩
      · refine .inl ⟨.beforeStart e.text, by simp [accept, hp, hb], ?_⟩
        rw [if_pos ⟨hsilent, by simpa using hb⟩]
    · next hsilent =>
      have ha : s.accept e = s.process e := by simp [accept, hp]
      rw [if_neg (fun hn => hsilent hn.1), ha]
      have hrun (d : Descriptor) : log.Running d.id ↔ d.id ∈ s.ids := by
        rw [h.flight, and_iff_right hp]
      rcases process_cases hp e with ⟨d, hd, hn, ht⟩ | ⟨hd, t, notice, ht, hacc⟩
      · exact .inl ⟨_, ht, by simp only [hd, if_neg (mt (hrun d).mp hn)]⟩
      · refine .inr ⟨t, notice, ht, ?_, hacc⟩
        cases hf : e.finished? with
        | none => rfl
        | some d => exact if_pos ((hrun d).mpr (hd d hf))

/-! ## 5. The invariant is kept -/

/-- With nobody listening, feeding an event is accepting it. -/
theorem turn_of_accept {e : Event} {notice : Notice} {past : List Call}
    (ha : s.accept e = .ok (t, notice)) : s.turn {} (.event e past) = t := by
  have hn : Listeners.ofKind {} notice.kind = [] := by cases notice.kind <;> rfl
  simp only [turn, feed, ha, hn, tell]

theorem Recorded.accept (h : Recorded log s) {e : Event} {notice : Notice}
    (ha : s.accept e = .ok (t, notice)) : Recorded (log ++ [.event e]) t := by
  rcases h.accept_cases e with ⟨v, hv, -⟩ | ⟨t', notice', ht, hr, hacc⟩
  · exact nomatch hv.symm.trans ha
  · obtain ⟨rfl, rfl⟩ : t' = t ∧ notice' = notice := by simpa using ht.symm.trans ha
    have hopen : ¬ log.Ended := fun he => by simp [Record.refusal, he] at hr
    have hs (id : OperationId) : id ∈ s.ids ↔ log.Running id := by
      rw [h.flight, h.phase, Record.phase, if_neg hopen]
      split
      · next hsilent => simp [hsilent.not_running id]
      · simp
    refine ⟨?_, hacc.nodup h.nodup, fun id => ?_, ?_⟩
    · rw [hacc.phase]
      simp [Record.phase, Record.ended_concat, Record.silent_concat, hopen, Turn.isLast,
        Turn.isEvent]
    · rw [hacc.ids, hacc.phase, Record.running_concat, hs]
      cases e.isBuildFinish <;> simp [Turn.isStartOf, Turn.isFinishOf]
    · rw [ofTurns_concat, ← h.replay, turn_of_accept ha]

/-- What holds of a record and its stream, and is kept by a close and by an accepted event. -/
structure Kept (P : Record → Stream → Prop) : Prop where
  close : ∀ {log s}, P log s → P (log ++ [.close]) s.close
  accept : ∀ {log s t} {e : Event} {notice : Notice}, P log s → s.accept e = .ok (t, notice) →
    P (log ++ [.event e]) t

theorem kept_recorded : Kept Recorded := ⟨Recorded.close, fun h ha => h.accept ha⟩

section Kept

variable {P : Record → Stream → Prop}

/-- Calls of listeners leave the stream as it is, or close it. -/
theorem Kept.afterCalls (hk : Kept P) (h : P log s) (calls : List Call) :
    P (log ++ closes calls) (s.afterCalls calls) := by
  induction calls generalizing log s with
  | nil => simpa [closes, Stream.afterCalls] using h
  | cons c calls ih =>
    rw [afterCalls_cons, after, ← Call.closes]
    cases hc : c.closes with
    | true =>
      have hs := ih (hk.close h)
      simpa [closes, hc] using hs
    | false => simpa [closes, hc] using ih h

/-- **One call** leaves a record of what counts of it. -/
theorem Kept.turn (hk : Kept P) (h : P log s) (turn : Turn) :
    P (log ++ s.counted listeners turn) (s.turn listeners turn) := by
  cases turn with
  | close => exact hk.close h
  | event e past =>
    cases ha : s.accept e with
    | error v => simpa [counted, Stream.turn, feed, ha] using h
    | ok accepted =>
      obtain ⟨t, notice⟩ := accepted
      have ht := hk.afterCalls (hk.accept h ha) (s.feed listeners past e).2.calls
      rw [← (tells_feed ha listeners past).final] at ht
      simpa [counted, Stream.turn, ha] using ht

/-- **All calls** are made of accepted events and closes, so they keep what these keep. -/
theorem Kept.turns (hk : Kept P) (h : P log s) (turns : List Turn) :
    P (log ++ record listeners s turns) (turns.foldl (Stream.turn listeners) s) := by
  induction turns generalizing log s with
  | nil => simpa [record] using h
  | cons turn turns ih =>
    rw [List.foldl_cons, record, ← List.append_assoc]
    exact ih (hk.turn h turn)

end Kept

theorem Recorded.turns (h : Recorded log s) (turns : List Turn) :
    Recorded (log ++ record listeners s turns) (turns.foldl (Stream.turn listeners) s) :=
  kept_recorded.turns h turns

/-- **What becomes of an event** after any calls of a stream, with any listeners.

It is refused exactly for the reasons that the record gives, and then nothing changes and nobody is
told.  The record also tells the phase, and the operations in flight: in an active stream those
that started and did not finish after that, and otherwise none.  What was refused has left nothing
behind, in these or in anything else: the record alone makes the same stream. -/
theorem feed_ofTurns (listeners : Listeners) (turns : List Turn) (past : List Call) (e : Event) :
    let s := ofTurns listeners turns
    let log := record listeners {} turns
    (s.feed listeners past e).2.violation = log.refusal e ∧
      (∀ v, log.refusal e = some v → s.feed listeners past e = (s, { violation := some v })) ∧
      s.phase = log.phase ∧
      s.ids.Nodup ∧ (∀ id, id ∈ s.ids ↔ s.phase = .active ∧ log.Running id) ∧
      s = ofTurns {} log := by
  intro s log
  have h : Recorded log s := recorded_nil.turns turns
  refine ⟨?_, ?_, h.phase, h.nodup, h.flight, h.replay⟩
  · rcases h.accept_cases e with ⟨v, ha, hr⟩ | ⟨t, notice, ha, hr, -⟩
    · rw [hr, feed_of_error ha]
    · rw [hr, (tells_feed ha listeners past).violation]
  · intro v hv
    rcases h.accept_cases e with ⟨v', ha, hr⟩ | ⟨t, notice, ha, hr, -⟩
    · obtain rfl : v' = v := Option.some.inj (hr.symm.trans hv)
      exact feed_of_error ha listeners past
    · exact nomatch hr.symm.trans hv

end Stream

end BuildStream
