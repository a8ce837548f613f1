/-
# Walking from parent to parent

An operation refers to its parent by a serial number, and a listener can walk from there to the
parent's parent and so on.  Parent ids come from the other side and may be anything: the operation's
own id, an id that refers back, one that nobody has heard of, or one that is used again while it is
in flight.  Walks end all the same (`feed_walk`), since a parent is looked up before its child is
put in flight, so that it started earlier.

* §1 says where in the record an operation began.
* §2 is about one event.  What is in flight after it was in flight before and is left alone by it,
  or begins with it (`mem_operations_of_accept`).
* §3 is the invariant `Tracked`, kept by every event and every close.  An operation is in flight as
  long as nothing that came after its start starts its id again, finishes it or ends the stream.
* §4 is about walks, for which `Ranked` is all that is needed.
* §5 says which parents are found, in terms of the record alone.  An id that is started again takes
  the place of the earlier operation, whose children then find no parent.  Where that does not
  happen, a parent is found until it finishes or the stream ends.
-/
import BuildStream.Proofs.Stream.Ancestors
import Mathlib.Data.List.Perm.Subperm

namespace BuildStream

/-! ## 1. Where an operation began -/

namespace Turn

/-- What a call tells about the operation that it starts. -/
def started? : Turn → Option Descriptor
  | event (.progress ⟨_, d, .started⟩) _ => some d
  | _ => none

/-- The operation of an id goes on with the call as without it. -/
def Leaves (id : OperationId) (turn : Turn) : Prop :=
  turn.isStartOf id = false ∧ turn.isFinishOf id = false ∧ turn.isLast = false

theorem isStartOf_iff {turn : Turn} {id : OperationId} :
    turn.isStartOf id = true ↔ ∃ d, turn.started? = some d ∧ d.id = id := by
  cases turn with
  | close => simp [isStartOf, started?]
  | event e past =>
    cases e with
    | status e => simp [isStartOf, started?, Event.isStartOf]
    | progress e =>
      obtain ⟨time, d, progress⟩ := e
      cases progress <;> simp [isStartOf, started?, Event.isStartOf]

/-- A start finishes nothing and is not the end. -/
theorem not_finish_of_started {turn : Turn} {d : Descriptor} (h : turn.started? = some d)
    (id : OperationId) : turn.isFinishOf id = false ∧ turn.isLast = false := by
  cases turn with
  | close => exact nomatch h
  | event e past =>
    cases e with
    | status e => exact nomatch h
    | progress e =>
      obtain ⟨time, d', progress⟩ := e
      cases progress with
      | started => exact ⟨rfl, rfl⟩
      | finished r => exact nomatch h

/-- A start leaves all operations alone but the one that it takes the place of. -/
theorem leaves_of_started {turn : Turn} {d : Descriptor} (h : turn.started? = some d)
    {id : OperationId} : turn.Leaves id ↔ d.id ≠ id := by
  rw [Leaves, and_iff_left (not_finish_of_started h id), ← Bool.not_eq_true, isStartOf_iff, h]
  simp

/-- A finish leaves the other operations alone, unless it ends the stream. -/
theorem leaves_finish {time : Timestamp} {d : Descriptor} {r : OperationResult}
    {id : OperationId} :
    (event (.progress ⟨time, d, .finished r⟩)).Leaves id ↔ d.id ≠ id ∧ d.kind ≠ .build := by
  simp [Leaves, isStartOf, isFinishOf, isLast, Event.isStartOf, Event.isFinishOf,
    Event.finished?, Event.isBuildFinish]

end Turn

namespace Record

/-- The operations that were started, in order. -/
def starts (log : Record) : List Descriptor := log.filterMap Turn.started?

theorem starts_concat (log : Record) (turn : Turn) :
    starts (log ++ [turn]) = log.starts ++ turn.started?.toList := by
  rw [starts, List.filterMap_append, ← starts]
  cases h : turn.started? <;> simp [h]

/-- An operation began with a call, before and after which the rest of the record came.  Its serial
number counts the starts before it, and its parent is what its parent id led to then. -/
structure Begins (log : Record) (op : Operation) (before : Record) (turn : Turn) (after : Record) :
    Prop where
  split : log = before ++ turn :: after
  started : turn.started? = some op.descriptor
  serial : op.serial = before.starts.length
  parent : op.parent =
    (op.descriptor.parent.bind (Stream.ofTurns {} before).operation?).map (·.serial)

variable {log before after : Record} {turn x : Turn} {op : Operation}

theorem Begins.concat (h : log.Begins op before turn after) (x : Turn) :
    Begins (log ++ [x]) op before turn (after ++ [x]) :=
  ⟨by rw [h.split]; simp, h.started, h.serial, h.parent⟩

/-- An operation began with the last call or before it. -/
theorem begins_concat_cases (h : Begins (log ++ [x]) op before turn after) :
    before = log ∧ turn = x ∧ after = [] ∨
      ∃ rest, after = rest ++ [x] ∧ log.Begins op before turn rest := by
  rcases List.eq_nil_or_concat' after with rfl | ⟨rest, last, rfl⟩
  · obtain ⟨rfl, hx⟩ := List.append_inj' h.split rfl
    exact .inl ⟨rfl, (List.singleton_inj.mp hx).symm, rfl⟩
  · have hs : log ++ [x] = (before ++ turn :: rest) ++ [last] := by simpa using h.split
    obtain ⟨hlog, hx⟩ := List.append_inj' hs rfl
    obtain rfl := List.singleton_inj.mp hx
    exact .inr ⟨rest, rfl, hlog, h.started, h.serial, h.parent⟩

/-- The serial number of an operation is its place among the starts. -/
theorem Begins.getElem?_starts (h : log.Begins op before turn after) :
    log.starts[op.serial]? = some op.descriptor := by
  rw [h.split, h.serial, starts, List.filterMap_append, List.filterMap_cons_some h.started,
    ← starts, List.getElem?_append_right (Nat.le_refl _), Nat.sub_self]
  rfl

/-- Two starts with as many starts before them are the same. -/
theorem before_eq_of_starts {others rest : Record} {d d' : Descriptor}
    (hs : before ++ turn :: after = others ++ x :: rest) (ht : turn.started? = some d)
    (hx : x.started? = some d') (hn : before.starts.length = others.starts.length) :
    before = others := by
  have hlonger {l m : Record} {y : Turn} {d : Descriptor} (hy : y.started? = some d) :
      l.starts.length < (l ++ y :: m).starts.length := by
    simp [starts, List.filterMap_cons_some hy]
  rcases List.append_eq_append_iff.mp hs with ⟨m, rfl, hm⟩ | ⟨m, rfl, hm⟩
  · cases m with
    | nil => simp
    | cons y m =>
      obtain rfl := (List.cons.inj hm).1
      exact absurd hn (Nat.ne_of_lt (hlonger ht))
  · cases m with
    | nil => simp
    | cons y m =>
      obtain rfl := (List.cons.inj hm).1
      exact absurd hn (Nat.ne_of_gt (hlonger hx))

/-- **A serial number belongs to one operation.** -/
theorem Begins.eq_of_serial {op' : Operation} {others rest : Record}
    (h : log.Begins op before turn after) (h' : log.Begins op' others x rest)
    (hs : op.serial = op'.serial) : op = op' := by
  have hcut := h.split.symm.trans h'.split
  obtain rfl := before_eq_of_starts hcut h.started h'.started
    (h.serial.symm.trans (hs.trans h'.serial))
  obtain rfl := (List.cons.inj (List.append_cancel_left hcut)).1
  have hd : op.descriptor = op'.descriptor := Option.some.inj (h.started.symm.trans h'.started)
  have hp : op.parent = op'.parent := by rw [h.parent, h'.parent, hd]
  obtain ⟨serial, d, parent⟩ := op
  obtain ⟨serial', d', parent'⟩ := op'
  rw [Operation.mk.injEq]
  exact ⟨hs, hd, hp⟩

theorem Begins.serial_lt (h : log.Begins op before turn after) : op.serial < log.starts.length :=
  (List.getElem?_eq_some_iff.mp h.getElem?_starts).1

/-- The operation of an id is in flight by the record. -/
def InFlight (log : Record) (id : OperationId) : Prop := ¬ log.Ended ∧ log.Running id

/-- No id is started while it is in flight. -/
def NoRestart (log : Record) : Prop :=
  ∀ (before : Record) turn after, log = before ++ turn :: after →
    ∀ id, turn.isStartOf id = true → ¬ before.InFlight id

/-- Where no id is started while it is in flight, only its finish and the end of the stream take an
operation out of flight. -/
theorem NoRestart.leaves_iff {rest : Record} {id : OperationId} (h : log.NoRestart)
    (hs : log = before ++ rest) (hi : before.InFlight id) :
    (∀ x ∈ rest, x.Leaves id) ↔ ∀ x ∈ rest, x.isFinishOf id = false ∧ x.isLast = false := by
  refine ⟨fun hl x hx => (hl x hx).2, fun hl => ?_⟩
  induction rest generalizing before with
  | nil => exact fun _ hx => nomatch hx
  | cons y rest ih =>
    obtain ⟨⟨hf, hlast⟩, hrest⟩ := List.forall_mem_cons.mp hl
    have hstart : y.isStartOf id = false :=
      Bool.eq_false_iff.mpr fun hy => h before y rest hs id hy hi
    have hnext : InFlight (before ++ [y]) id := by
      refine ⟨?_, running_concat.mpr (.inr ⟨hi.2, hf⟩)⟩
      rw [ended_concat, hlast]
      simpa using hi.1
    exact List.forall_mem_cons.mpr
      ⟨⟨hstart, hf, hlast⟩, ih (by simpa using hs) hnext hrest⟩

end Record

namespace Stream

variable {log before after : Record} {s t : Stream} {turn : Turn} {notice : Notice}
  {op above : Operation}

/-! ## 2. One event -/

/-- The operation that a start makes. -/
def made (s : Stream) (d : Descriptor) : Operation :=
  ⟨s.nextSerial, d, (d.parent.bind s.operation?).map (·.serial)⟩

/-- **What is in flight after an event** was left alone by it, or is made by it. -/
theorem mem_operations_of_accept {e : Event} (ha : s.accept e = .ok (t, notice))
    (o : OperationId × Operation) :
    o ∈ t.operations ↔ o ∈ s.operations ∧ (Turn.event e).Leaves o.1 ∨
      ∃ d, (Turn.event e).started? = some d ∧ o = (d.id, s.made d) := by
  have hp := process_of_accept ha
  cases e with
  | status e =>
    obtain ⟨rfl, -⟩ := Prod.mk.inj (Except.ok.inj hp)
    have hleaves : (Turn.event (.status e)).Leaves o.1 := ⟨rfl, rfl, rfl⟩
    simp [hleaves, Turn.started?]
  | progress e =>
    obtain ⟨time, d, progress⟩ := e
    cases progress with
    | started =>
      obtain ⟨rfl, -⟩ := Prod.mk.inj (Except.ok.inj hp)
      rw [Turn.leaves_of_started rfl, ne_comm]
      simp only [without, List.mem_append, List.mem_filter, List.mem_singleton, bne_iff_ne,
        Turn.started?, Option.some.injEq, exists_eq_left', made]
      rfl
    | finished r =>
      obtain ⟨-, ho⟩ := operations_finish hp
      rw [Turn.leaves_finish, ne_comm, ho]
      split
      · next hk => simp [hk, Turn.started?]
      · next hk => simp [hk, without, Turn.started?]

theorem nextSerial_of_accept {e : Event} (ha : s.accept e = .ok (t, notice)) :
    t.nextSerial = s.nextSerial + (Turn.event e).started?.toList.length := by
  have hp := process_of_accept ha
  cases e with
  | status e =>
    obtain ⟨rfl, -⟩ := Prod.mk.inj (Except.ok.inj hp)
    rfl
  | progress e =>
    obtain ⟨time, d, progress⟩ := e
    cases progress with
    | started =>
      obtain ⟨rfl, -⟩ := Prod.mk.inj (Except.ok.inj hp)
      rfl
    | finished r => exact (operations_finish hp).1

/-! ## 3. In flight by the record -/

/-- What the record says of the operations in flight: when they began, and that they were left
alone since. -/
structure Tracked (log : Record) (s : Stream) : Prop where
  recorded : Recorded log s
  ranked : s.Ranked
  count : s.nextSerial = log.starts.length
  keyed : ∀ o ∈ s.operations, o.1 = o.2.descriptor.id
  begun : ∀ o ∈ s.operations, ∃ before turn after, log.Begins o.2 before turn after
  flight : ∀ {op before turn after}, log.Begins op before turn after →
    ((op.descriptor.id, op) ∈ s.operations ↔ ∀ x ∈ after, x.Leaves op.descriptor.id)

theorem tracked_nil : Tracked [] {} where
  recorded := recorded_nil
  ranked := ranked_ofEvents []
  count := rfl
  keyed _ ho := nomatch ho
  begun _ ho := nomatch ho
  flight h := by simpa using h.split

theorem Tracked.close (h : Tracked log s) : Tracked (log ++ [.close]) s.close where
  recorded := h.recorded.close
  ranked := h.ranked.close
  count := by
    rw [Record.starts_concat]
    exact h.count.trans (by simp [Turn.started?])
  keyed _ ho := nomatch ho
  begun _ ho := nomatch ho
  flight hb := by
    refine ⟨fun ho => (nomatch ho), fun hl => ?_⟩
    rcases Record.begins_concat_cases hb with ⟨-, rfl, -⟩ | ⟨rest, rfl, -⟩
    · exact nomatch hb.started
    · exact nomatch (hl .close (by simp)).2.2

theorem Tracked.accept (h : Tracked log s) {e : Event} (ha : s.accept e = .ok (t, notice)) :
    Tracked (log ++ [.event e]) t := by
  have hmem := mem_operations_of_accept ha
  have hmade {d : Descriptor} (hd : (Turn.event e).started? = some d) :
      Record.Begins (log ++ [.event e]) (s.made d) log (.event e) [] :=
    ⟨rfl, hd, h.count, by rw [← h.recorded.replay]; rfl⟩
  refine ⟨h.recorded.accept ha, h.ranked.accept ha, ?_, ?_, ?_, ?_⟩
  · rw [nextSerial_of_accept ha, h.count, Record.starts_concat, List.length_append]
  · intro o ho
    rcases (hmem o).mp ho with ⟨ho, -⟩ | ⟨d, -, rfl⟩
    · exact h.keyed o ho
    · rfl
  · intro o ho
    rcases (hmem o).mp ho with ⟨ho, -⟩ | ⟨d, hd, rfl⟩
    · obtain ⟨before, turn, after, hb⟩ := h.begun o ho
      exact ⟨before, turn, after ++ [.event e], hb.concat _⟩
    · exact ⟨log, .event e, [], hmade hd⟩
  · intro op before turn after hb
    rcases Record.begins_concat_cases hb with ⟨rfl, rfl, rfl⟩ | ⟨rest, rfl, hrest⟩
    · -- the operation is made by this very event
      have hop : op = s.made op.descriptor := by
        have hserial : op.serial = s.nextSerial := hb.serial.trans h.count.symm
        have hparent : op.parent = (s.made op.descriptor).parent :=
          hb.parent.trans (hmade hb.started).parent.symm
        obtain ⟨serial, d, parent⟩ := op
        rw [made, Operation.mk.injEq]
        exact ⟨hserial, rfl, hparent⟩
      simp only [List.not_mem_nil, false_imp_iff, implies_true, iff_true]
      exact (hmem _).mpr (.inr ⟨op.descriptor, hb.started, by rw [← hop]⟩)
    · have hold : ¬ ∃ d, (Turn.event e).started? = some d ∧
          (op.descriptor.id, op) = (d.id, s.made d) := by
        rintro ⟨d, -, hd⟩
        have hlt := hrest.serial_lt
        rw [(Prod.mk.inj hd).2, ← h.count] at hlt
        exact Nat.lt_irrefl _ hlt
      rw [hmem, or_iff_left hold, h.flight hrest]
      simp only [List.mem_append, List.mem_singleton, or_imp, forall_and, forall_eq]

/-- The record tells what is in flight. -/
theorem Tracked.mem_ids (h : Tracked log s) {id : OperationId} : id ∈ s.ids ↔ log.InFlight id := by
  rw [h.recorded.flight, h.recorded.phase, Record.phase, Record.InFlight]
  by_cases he : log.Ended
  · simp [he]
  · by_cases hs : log.Silent
    · simp [he, hs, hs.not_running id]
    · simp [he, hs]

theorem Tracked.operation?_of_mem (h : Tracked log s) {o : OperationId × Operation}
    (ho : o ∈ s.operations) : s.operation? o.1 = some o.2 := by
  obtain ⟨op, hop⟩ := mem_ids_iff.mp (List.mem_map_of_mem ho)
  have hsame : o = (o.1, op) := List.inj_on_of_nodup_map h.recorded.nodup ho (mem_operations hop) rfl
  rw [hop, hsame]

/-- The record up to any call says the same of the stream at that time. -/
def TrackedAlong (log : Record) (s : Stream) : Prop :=
  Tracked log s ∧ ∀ before, before <+: log → Tracked before (ofTurns {} before)

theorem TrackedAlong.concat {x : Turn} (h : TrackedAlong log s) (ht : Tracked (log ++ [x]) t) :
    TrackedAlong (log ++ [x]) t := by
  refine ⟨ht, ?_⟩
  intro before hb
  rcases List.prefix_concat_iff.mp hb with rfl | hb
  · exact ht.recorded.replay ▸ ht
  · exact h.2 before hb

/-- Accepting an event and closing keep it, and so does all that may happen to a stream. -/
theorem kept_trackedAlong : Kept TrackedAlong where
  close h := h.concat h.1.close
  accept h ha := h.concat (h.1.accept ha)

theorem trackedAlong_nil : TrackedAlong [] {} := by
  refine ⟨tracked_nil, ?_⟩
  intro before hb
  rw [List.prefix_nil.mp hb]
  exact tracked_nil

theorem TrackedAlong.tracked_before (h : TrackedAlong log s) (hb : log.Begins op before turn after) :
    Tracked before (ofTurns {} before) :=
  h.2 before (hb.split ▸ List.prefix_append ..)

/-- The operation that listeners are told of began at some time. -/
theorem Tracked.exists_begins (h : Tracked log s) {e : Event} {text : String} {progress : Progress}
    (ha : s.accept e = .ok (t, .operation text op progress)) :
    ∃ before turn after, Record.Begins (log ++ [.event e]) op before turn after := by
  have hp := process_of_accept ha
  cases e with
  | status e => exact nomatch (Prod.mk.inj (Except.ok.inj hp)).2
  | progress e =>
    obtain ⟨time, d, progress'⟩ := e
    cases progress' with
    | started =>
      have hop : (d.id, s.made d) ∈ t.operations :=
        (mem_operations_of_accept ha _).mpr (.inr ⟨d, rfl, rfl⟩)
      have hn := (Prod.mk.inj (Except.ok.inj hp)).2
      obtain rfl : s.made d = op := (Notice.operation.inj hn).2.1
      exact (h.accept ha).begun _ hop
    | finished r =>
      obtain ⟨op', _, hop, hn, -⟩ := finish_eq_ok hp
      obtain rfl : op = op' := (Notice.operation.inj hn).2.1
      obtain ⟨before, turn, after, hb⟩ := h.begun _ (mem_operations hop)
      exact ⟨before, turn, after ++ [_], hb.concat _⟩

/-! ## 4. Walks -/

/-- The parent of an operation, as long as it is in flight. -/
def parent? (s : Stream) (op : Operation) : Option Operation := op.parent.bind s.bySerial?

/-- Going from parent to parent, from an operation until there is no parent. -/
inductive Walk (s : Stream) : Operation → List Operation → Prop
  | ends {op : Operation} (h : s.parent? op = none) : Walk s op []
  | up {op above : Operation} {ops : List Operation} (h : s.parent? op = some above)
      (hw : Walk s above ops) : Walk s op (above :: ops)

/-- What is found as a parent is in flight. -/
theorem mem_of_parent? (h : s.parent? op = some above) :
    above ∈ s.operations.map (·.2) ∧ op.parent = some above.serial := by
  obtain ⟨serial, hp, hs⟩ := Option.bind_eq_some_iff.mp h
  have hserial : above.serial = serial := by simpa using List.find?_some hs
  exact ⟨List.mem_of_find?_eq_some hs, hserial ▸ hp⟩

/-- An operation started after its parent. -/
def Later (op : Operation) : Prop := ∀ serial, op.parent = some serial → serial < op.serial

theorem Ranked.later (h : s.Ranked) (hop : op ∈ s.operations.map (·.2)) : Later op := by
  obtain ⟨o, ho, rfl⟩ := List.mem_map.mp hop
  exact h.parents o ho

/-- **Walks end**, within as many steps as operations started before. -/
theorem walk_ancestorsTo (h : s.Ranked) (hlater : Later op) {fuel : Nat} (hf : op.serial ≤ fuel) :
    s.Walk op (s.ancestorsTo fuel op) := by
  induction fuel generalizing op with
  | zero =>
    refine .ends ?_
    cases hp : op.parent with
    | none => rw [parent?, hp, Option.bind_none]
    | some serial =>
      have hlt := hlater serial hp
      omega
  | succ fuel ih =>
    unfold ancestorsTo
    rw [← parent?]
    cases hp : s.parent? op with
    | none => exact .ends hp
    | some above =>
      obtain ⟨hm, hserial⟩ := mem_of_parent? hp
      have hlt := hlater _ hserial
      exact .up hp (ih (h.later hm) (by omega))

variable {ops : List Operation}

theorem Walk.mem (h : s.Walk op ops) : ∀ a ∈ ops, a ∈ s.operations.map (·.2) := by
  induction h with
  | ends => exact fun _ ha => nomatch ha
  | up hp _ ih => exact List.forall_mem_cons.mpr ⟨(mem_of_parent? hp).1, ih⟩

/-- On a walk everything started before what led there. -/
theorem Walk.pairwise (hw : s.Walk op ops) (h : s.Ranked) (hlater : Later op) :
    (op :: ops).Pairwise fun a b => b.serial < a.serial := by
  induction hw with
  | ends => exact List.pairwise_singleton ..
  | up hp _ ih =>
    obtain ⟨hm, hserial⟩ := mem_of_parent? hp
    have hlt := hlater _ hserial
    have hrest := ih (h.later hm)
    refine List.pairwise_cons.mpr ⟨?_, hrest⟩
    intro a ha
    rcases List.mem_cons.mp ha with rfl | ha
    · exact hlt
    · exact Nat.lt_trans ((List.pairwise_cons.mp hrest).1 a ha) hlt

/-- A walk is no longer than there are operations in flight. -/
theorem Walk.length_le (hw : s.Walk op ops) (h : s.Ranked) (hlater : Later op) :
    ops.length ≤ s.inFlight := by
  have hnodup : ops.Nodup := by
    refine (List.pairwise_cons.mp (hw.pairwise h hlater)).2.imp ?_
    rintro a _ hlt rfl
    exact Nat.lt_irrefl _ hlt
  have hle := (List.subperm_of_subset hnodup hw.mem).length_le
  rwa [List.length_map] at hle

/-! ## 5. Which parents are found -/

/-- **A parent is found** where one was in flight under the parent id when the operation started,
and was left alone since then; the start of the operation itself counts, as it may take the place
of its parent. -/
theorem TrackedAlong.parent?_eq_some_iff (h : TrackedAlong log s)
    (hb : log.Begins op before turn after) :
    s.parent? op = some above ↔ ∃ id ∈ op.descriptor.parent,
      (ofTurns {} before).operation? id = some above ∧ ∀ x ∈ turn :: after, x.Leaves id := by
  have hbefore := h.tracked_before hb
  -- what was in flight at the start began before it, and may have been left alone since
  have hkept {id : OperationId} {old : Operation}
      (hold : (ofTurns {} before).operation? id = some old) :
      (∃ first call rest, log.Begins old first call rest) ∧
        ((id, old) ∈ s.operations ↔ ∀ x ∈ turn :: after, x.Leaves id) := by
    have hmem := mem_operations hold
    obtain rfl : id = old.descriptor.id := hbefore.keyed _ hmem
    obtain ⟨first, call, rest, hf⟩ := hbefore.begun _ hmem
    have hlog : log.Begins old first call (rest ++ turn :: after) :=
      ⟨by rw [hb.split, hf.split]; simp, hf.started, hf.serial, hf.parent⟩
    refine ⟨⟨_, _, _, hlog⟩, ?_⟩
    rw [h.1.flight hlog, List.forall_mem_append, and_iff_right ((hbefore.flight hf).mp hmem)]
  constructor
  · intro hp
    obtain ⟨hm, hserial⟩ := mem_of_parent? hp
    rw [hb.parent, Option.map_eq_some_iff] at hserial
    obtain ⟨old, hold, hsame⟩ := hserial
    obtain ⟨id, hid, hold⟩ := Option.bind_eq_some_iff.mp hold
    obtain ⟨⟨_, _, _, hbegan⟩, hflight⟩ := hkept hold
    obtain ⟨⟨id', found⟩, ho, rfl⟩ := List.mem_map.mp hm
    obtain ⟨_, _, _, hfound⟩ := h.1.begun _ ho
    obtain rfl : old = found := hbegan.eq_of_serial hfound hsame
    have hkey : id = id' :=
      (hbefore.keyed _ (mem_operations hold)).trans (h.1.keyed _ ho).symm
    exact ⟨id, hid, hold, hflight.mp (hkey ▸ ho)⟩
  · rintro ⟨id, hid, hold, hleft⟩
    have ho := (hkept hold).2.mpr hleft
    have hparent : op.parent = some above.serial := by
      rw [hb.parent, Option.mem_def.mp hid, Option.bind_some, hold]
      rfl
    rw [parent?, hparent, Option.bind_some, h.1.ranked.bySerial?_eq (h.1.operation?_of_mem ho)]

/-- Whether there is a parent to be found, in terms of the record alone. -/
theorem TrackedAlong.isSome_parent?_iff (h : TrackedAlong log s)
    (hb : log.Begins op before turn after) :
    (s.parent? op).isSome ↔ ∃ id ∈ op.descriptor.parent,
      before.InFlight id ∧ ∀ x ∈ turn :: after, x.Leaves id := by
  have hbefore := h.tracked_before hb
  rw [Option.isSome_iff_exists]
  constructor
  · rintro ⟨above, ha⟩
    obtain ⟨id, hid, hold, hl⟩ := (h.parent?_eq_some_iff hb).mp ha
    exact ⟨id, hid, hbefore.mem_ids.mp (mem_ids_iff.mpr ⟨above, hold⟩), hl⟩
  · rintro ⟨id, hid, hi, hl⟩
    obtain ⟨above, hold⟩ := mem_ids_iff.mp (hbefore.mem_ids.mpr hi)
    exact ⟨above, (h.parent?_eq_some_iff hb).mpr ⟨id, hid, hold, hl⟩⟩

/-- Where no id is started while it is in flight, a parent is lost by its finish or the end of the
stream, and by nothing else. -/
theorem TrackedAlong.isSome_parent?_of_noRestart (h : TrackedAlong log s)
    (hb : log.Begins op before turn after) (hn : log.NoRestart) :
    (s.parent? op).isSome ↔ ∃ id ∈ op.descriptor.parent,
      before.InFlight id ∧ ∀ x ∈ after, x.isFinishOf id = false ∧ x.isLast = false := by
  rw [h.isSome_parent?_iff hb]
  refine exists_congr fun id => and_congr_right fun _ => and_congr_right fun hi => ?_
  rw [hn.leaves_iff hb.split hi, List.forall_mem_cons,
    and_iff_right (Turn.not_finish_of_started hb.started id)]

/-- An operation that began has a serial number above its parent's. -/
theorem TrackedAlong.later (h : TrackedAlong log s) (hb : log.Begins op before turn after) :
    Later op := by
  intro serial hs
  rw [hb.parent, Option.map_eq_some_iff] at hs
  obtain ⟨above, ha, rfl⟩ := hs
  obtain ⟨id, -, hop⟩ := Option.bind_eq_some_iff.mp ha
  have hlt := (h.tracked_before hb).ranked.below _ (mem_operations hop)
  rwa [(h.tracked_before hb).count, ← hb.serial] at hlt

/-- What is found on a walk from an operation, and where the walk ends. -/
structure Walked (log : Record) (s : Stream) (op : Operation) (ops : List Operation) : Prop where
  walk : s.Walk op ops
  length_le : ops.length ≤ s.inFlight
  /-- Everything started before what led there. -/
  older : (op :: ops).Pairwise fun a b => b.serial < a.serial
  started : ∀ a ∈ op :: ops, log.starts[a.serial]? = some a.descriptor
  inFlight : ∀ a ∈ ops, s.operation? a.descriptor.id = some a
  /-- There is a parent if one was in flight at the start and was left alone since. -/
  parents : ∀ a ∈ op :: ops, ∃ before turn after, log.Begins a before turn after ∧
    ((s.parent? a).isSome ↔ ∃ id ∈ a.descriptor.parent,
      before.InFlight id ∧ ∀ x ∈ turn :: after, x.Leaves id)
  /-- Without restarts, there is a parent if one was in flight at the start and neither finished
  nor was the stream closed since. -/
  parents_of_noRestart : log.NoRestart →
    ∀ a ∈ op :: ops, ∃ before turn after, log.Begins a before turn after ∧
      ((s.parent? a).isSome ↔ ∃ id ∈ a.descriptor.parent,
        before.InFlight id ∧ ∀ x ∈ after, x.isFinishOf id = false ∧ x.isLast = false)

theorem TrackedAlong.walked (h : TrackedAlong log s) (hb : log.Begins op before turn after) :
    Walked log s op (s.ancestors op) := by
  have hranked := h.1.ranked
  have hlater := h.later hb
  have hwalk : s.Walk op (s.ancestors op) := walk_ancestorsTo hranked hlater (Nat.le_refl _)
  have hbegins : ∀ a ∈ op :: s.ancestors op, ∃ before turn after,
      log.Begins a before turn after := by
    refine List.forall_mem_cons.mpr ⟨⟨_, _, _, hb⟩, ?_⟩
    intro a ha
    obtain ⟨o, ho, rfl⟩ := List.mem_map.mp (hwalk.mem a ha)
    exact h.1.begun o ho
  refine ⟨hwalk, hwalk.length_le hranked hlater, hwalk.pairwise hranked hlater, ?_, ?_, ?_, ?_⟩
  · intro a ha
    obtain ⟨_, _, _, hab⟩ := hbegins a ha
    exact hab.getElem?_starts
  · intro a ha
    obtain ⟨o, ho, rfl⟩ := List.mem_map.mp (hwalk.mem a ha)
    rw [← h.1.keyed o ho]
    exact h.1.operation?_of_mem ho
  · intro a ha
    obtain ⟨_, _, _, hab⟩ := hbegins a ha
    exact ⟨_, _, _, hab, h.isSome_parent?_iff hab⟩
  · intro hn a ha
    obtain ⟨_, _, _, hab⟩ := hbegins a ha
    exact ⟨_, _, _, hab, h.isSome_parent?_of_noRestart hab hn⟩

/-- **Walking from parent to parent**, after any calls of a stream, with any listeners.

A listener that is told of an operation sees the stream as the event left it, or closed if a
listener before it closed it.  From there the walk ends.  Everything on it started before what led
there, so nothing comes twice; everything on it is in flight, so it is no longer than there are
operations in flight.  At every step there is a parent exactly if one was in flight under the parent
id when the operation started and was left alone since, by starts of its id too.  Where no id is
started while it is in flight, only its finish and the end of the stream take a parent away. -/
theorem feed_walk (listeners : Listeners) (turns : List Turn) (past : List Call) {e : Event}
    {c : Call} {text : String} {op : Operation} {progress : Progress}
    (hc : c ∈ ((ofTurns listeners turns).feed listeners past e).2.calls)
    (hn : c.notice = .operation text op progress) :
    ∃ log s, (log = record listeners {} turns ++ [.event e] ∨
        log = record listeners {} turns ++ [.event e, .close]) ∧ s = ofTurns {} log ∧
      c.phase = s.phase ∧ c.inFlight = s.inFlight ∧ Walked log s op c.ancestors := by
  have hstart : TrackedAlong (record listeners {} turns) (ofTurns listeners turns) :=
    kept_trackedAlong.turns trackedAlong_nil turns
  cases ha : (ofTurns listeners turns).accept e with
  | error v =>
    rw [feed_of_error ha] at hc
    cases hc
  | ok accepted =>
    obtain ⟨t, notice⟩ := accepted
    have htells := tells_feed ha listeners past
    obtain rfl : notice = .operation text op progress := (htells.notice_of_mem hc).symm.trans hn
    obtain ⟨_, _, _, hb⟩ := hstart.1.exists_begins ha
    have ht := kept_trackedAlong.accept hstart ha
    obtain ⟨l, -, sofar, hcall | ⟨-, hcall⟩⟩ := htells.exists_call hc <;> rw [hcall]
    · exact ⟨_, t, .inl rfl, ht.1.recorded.replay, rfl, rfl, ht.walked hb⟩
    · have hclosed := kept_trackedAlong.close ht
      refine ⟨_, t.close, .inr ?_, hclosed.1.recorded.replay, rfl, rfl,
        hclosed.walked (hb.concat .close)⟩
      simp

/-! ### Tasks that are inside each other -/

/-! A task starts inside another one, which is then started again inside the first. -/

namespace Tangled

/-- The build. -/
def build : Descriptor := .ofBuild ⟨.build, 1, 1⟩

/-- The task that is started twice. -/
def outer : Descriptor := .ofTask ⟨.task, 1, 2⟩ ":outer" none (some build.id)

/-- The task inside it. -/
def inner : Descriptor := .ofTask ⟨.task, 1, 3⟩ ":inner" none (some outer.id)

/-- The first task inside the second. -/
def again : Descriptor := .ofTask outer.id ":outer" none (some inner.id)

/-- A start. -/
def start (d : Descriptor) : Event := .progress ⟨.epoch, d, .started⟩

/-- What happens before the task is started again. -/
def turns : List Turn := [.event (start build), .event (start outer), .event (start inner)]

/-- One listener for tasks. -/
def listeners : Listeners := { task := [⟨"of tasks", fun _ _ => {}⟩] }

/-- The task that is started again, in flight. -/
def operation : Operation := ⟨3, again, some 2⟩

/-- What the listener is told and sees. -/
def call : Call where
  listener := "of tasks"
  place := 0
  reaction := {}
  notice := .operation "Task :outer started" operation .started
  phase := .active
  inFlight := 3
  ancestors := [⟨2, inner, some 1⟩]

end Tangled

/-- The walk goes from the second operation of an id to the task inside the first, and ends there:
the first is not in flight any more. -/
theorem feed_walk_tangled :
    Tangled.call ∈ ((ofTurns Tangled.listeners Tangled.turns).feed Tangled.listeners []
      (Tangled.start Tangled.again)).2.calls ∧
    Tangled.call.notice = .operation "Task :outer started" Tangled.operation .started ∧
    ∃ log s, s = ofTurns {} log ∧ s.inFlight = 3 ∧
      Walked log s Tangled.operation [⟨2, Tangled.inner, some 1⟩] ∧
      s.parent? ⟨2, Tangled.inner, some 1⟩ = none := by
  have hc : Tangled.call ∈ ((ofTurns Tangled.listeners Tangled.turns).feed Tangled.listeners []
      (Tangled.start Tangled.again)).2.calls := .head _
  obtain ⟨log, s, -, hs, -, hflight, hw⟩ := feed_walk Tangled.listeners Tangled.turns [] hc rfl
  refine ⟨hc, rfl, log, s, hs, hflight.symm, hw, ?_⟩
  cases hw.walk with
  | up _ hrest =>
    cases hrest with
    | ends h => exact h

end Stream

end BuildStream
