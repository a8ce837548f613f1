/-
# Orderly streams

A stream refuses what comes before its build starts, what comes after it ends, and the finish of
an operation that is not in flight.  `Orderly` says of a list of events that nothing of this kind
can happen: the start of the build comes first and its finish last, and of every id there is at
most a start and then at most a finish, both with the same descriptor.

An orderly list is accepted as a whole, and so is every beginning of it; at its end the stream is
closed, and not before unless a listener closes it (`feedAll_orderly`).  The invariant that carries
the induction is `Opens`: an id of which only the start has been seen leads to an operation in
flight with the descriptor of the start.  It is also why a listener that is told of a finish is told
of the operation that started.
-/
import BuildStream.Proofs.Stream.Telling
import Mathlib.Data.List.Forall2

namespace BuildStream

/-! ## 1. Marks -/

/-- A start or a finish of an operation. -/
structure Mark where
  descriptor : Descriptor
  isStart : Bool
deriving DecidableEq, Repr

/-- Whether a transition is a start. -/
def Progress.isStart : Progress → Bool
  | started => true
  | finished _ => false

/-- The start or finish that an event tells of. -/
def Event.mark? : Event → Option Mark
  | progress e => some ⟨e.descriptor, e.progress.isStart⟩
  | status _ => none

/-- The start or finish that a notice tells of, with the operation as it is in flight. -/
def Notice.mark? : Notice → Option Mark
  | operation _ op progress => some ⟨op.descriptor, progress.isStart⟩
  | status _ => none

/-- The operation that an event tells of, and what became of it. -/
def Event.transition? : Event → Option (Descriptor × Progress)
  | progress e => some (e.descriptor, e.progress)
  | status _ => none

/-- The operation that a notice tells of, as it is in flight, and what became of it. -/
def Notice.transition? : Notice → Option (Descriptor × Progress)
  | operation _ op progress => some (op.descriptor, progress)
  | status _ => none

/-- A transition without the result of a finish. -/
def Mark.ofTransition (t : Descriptor × Progress) : Mark := ⟨t.1, t.2.isStart⟩

theorem Event.mark?_eq_map (e : Event) : e.mark? = e.transition?.map Mark.ofTransition := by
  cases e <;> rfl

theorem Notice.mark?_eq_map (n : Notice) : n.mark? = n.transition?.map Mark.ofTransition := by
  cases n <;> rfl

namespace Mark

/-- The kind of events that tell of a mark. -/
def kind (m : Mark) : EventKind := .ofOperation m.descriptor.kind

/-- The starts of operations inside each other, outermost first, and their finishes. -/
def nested (descriptors : List Descriptor) : List Mark :=
  descriptors.map (⟨·, true⟩) ++ descriptors.reverse.map (⟨·, false⟩)

/-- The start and the finish of one operation. -/
abbrev pair (d : Descriptor) : List Mark := nested [d]

/-- The marks of an id among those of events. -/
def ofId (id : OperationId) (events : List Event) : List Mark :=
  (events.filterMap Event.mark?).filter fun m => decide (m.descriptor.id = id)

theorem ofId_append (id : OperationId) (events more : List Event) :
    ofId id (events ++ more) = ofId id events ++ ofId id more := by
  rw [ofId, List.filterMap_append, List.filter_append, ofId, ofId]

theorem ofId_cons_of_mark {id : OperationId} {e : Event} {m : Mark} (he : e.mark? = some m)
    (hm : m.descriptor.id = id) (events : List Event) :
    ofId id (e :: events) = m :: ofId id events := by
  rw [ofId, List.filterMap_cons_some he, List.filter_cons_of_pos (by simp [hm]), ofId]

theorem ofId_cons_of_ne {id : OperationId} {e : Event}
    (he : ∀ m, e.mark? = some m → m.descriptor.id ≠ id) (events : List Event) :
    ofId id (e :: events) = ofId id events := by
  cases h : e.mark? with
  | none => rw [ofId, List.filterMap_cons_none h, ofId]
  | some m =>
    rw [ofId, List.filterMap_cons_some h, List.filter_cons_of_neg (by simpa using he m h), ofId]

end Mark

theorem Event.kind_of_mark? {e : Event} {m : Mark} (h : e.mark? = some m) : e.kind = m.kind := by
  cases e with
  | progress e => cases h; rfl
  | status e => exact nomatch h

/-- A start is no finish. -/
theorem Event.isBuildFinish_of_isBuildStart {e : Event} (h : e.isBuildStart = true) :
    e.isBuildFinish = false := by
  cases e with
  | status e => rfl
  | progress e =>
    obtain ⟨time, descriptor, progress⟩ := e
    cases progress with
    | started => rfl
    | finished r => exact nomatch h

/-- Of every id there is at most a start and then at most a finish. -/
def Paired (events : List Event) : Prop := ∀ id, ∃ d, Mark.ofId id events <+: Mark.pair d

/-- Events that a stream can take one after the other. -/
structure Orderly (events : List Event) : Prop where
  frame : ∃ start inner finish, events = start :: (inner ++ [finish]) ∧ start.isBuildStart = true ∧
    finish.isBuildFinish = true ∧ ∀ e ∈ inner, e.isBuildFinish = false
  paired : Paired events

/-- The last event of orderly events is the only one that ends a build. -/
theorem Orderly.isBuildFinish_of_split {seen rest : List Event} {e : Event}
    (h : Orderly (seen ++ e :: rest)) : e.isBuildFinish = true ↔ rest = [] := by
  obtain ⟨start, inner, finish, hf, hs, hfin, hin⟩ := h.frame
  constructor
  · intro he
    by_contra hne
    obtain ⟨others, last, rfl⟩ := List.eq_nil_or_concat rest |>.resolve_left hne
    have hcut : seen ++ e :: others = start :: inner := by
      have hall : (seen ++ e :: others) ++ [last] = (start :: inner) ++ [finish] := by
        simpa using hf
      exact (List.append_inj' hall rfl).1
    have hm : e ∈ start :: inner := hcut ▸ List.mem_append_right _ List.mem_cons_self
    rcases List.mem_cons.mp hm with rfl | hm
    · exact nomatch he.symm.trans (Event.isBuildFinish_of_isBuildStart hs)
    · exact nomatch he.symm.trans (hin e hm)
  · rintro rfl
    have hlast : (seen ++ [e]).getLast? = some e := by simp
    rw [hf, ← List.cons_append, List.getLast?_append] at hlast
    simp at hlast
    exact hlast ▸ hfin

/-- Whether there is a listener at the chosen place among those that are told of a mark. -/
def Listeners.hears (ls : Listeners) (pick : EventKind → Nat) (m : Mark) : Bool :=
  decide (pick m.kind < (ls.ofKind m.kind).length)

namespace Stream

/-! ## 2. Operations in flight -/

theorem lookup_without {id id' : OperationId} (h : id' ≠ id)
    (operations : List (OperationId × Operation)) :
    (without id operations).lookup id' = operations.lookup id' := by
  induction operations with
  | nil => rfl
  | cons o operations ih =>
    obtain ⟨i, op⟩ := o
    unfold without at ih ⊢
    by_cases hi : i = id
    · have hne : (id' == i) = false := by simpa [hi] using h
      rw [List.filter_cons_of_neg (by simp [hi]), ih, List.lookup_cons, hne]
    · rw [List.filter_cons_of_pos (by simpa using hi), List.lookup_cons, List.lookup_cons, ih]

theorem lookup_without_self (id : OperationId) (operations : List (OperationId × Operation)) :
    (without id operations).lookup id = none := by
  refine List.lookup_eq_none_iff.mpr ?_
  intro o ho
  have hne : o.1 ≠ id := bne_iff_ne.mp (List.mem_filter.mp ho).2
  exact bne_iff_ne.mpr hne.symm

/-- A start puts an operation with its own descriptor in flight and leaves all others there. -/
theorem operation?_start (s : Stream) (time : Timestamp) (d : Descriptor) (id : OperationId) :
    (s.start ⟨time, d, .started⟩).1.operation? id =
      if d.id = id then some ⟨s.nextSerial, d, (d.parent.bind s.operation?).map (·.serial)⟩
      else s.operation? id := by
  have hl : (s.start ⟨time, d, .started⟩).1.operation? id =
      (without d.id s.operations ++ [(d.id, (⟨s.nextSerial, d,
        (d.parent.bind s.operation?).map (·.serial)⟩ : Operation))]).lookup id := rfl
  rw [hl, List.lookup_append]
  by_cases hid : d.id = id
  · subst hid
    rw [lookup_without_self, Option.none_or, if_pos rfl, List.lookup_cons_self]
  · have hne : (id == d.id) = false := beq_eq_false_iff_ne.mpr (Ne.symm hid)
    rw [lookup_without (Ne.symm hid), if_neg hid, List.lookup_cons, hne, List.lookup_nil,
      Option.or_none]
    rfl

/-- Ids of which only the start was seen lead to operations in flight. -/
def Opens (seen : List Event) (s : Stream) : Prop :=
  ∀ d, Mark.ofId d.id seen = [⟨d, true⟩] → ∃ op, s.operation? d.id = some op ∧ op.descriptor = d

/-- What becomes of a stream when it takes an event. -/
structure Takes (seen : List Event) (e : Event) (t : Stream) (notice : Notice) : Prop where
  kind : notice.kind = e.kind
  transition : notice.transition? = e.transition?
  closes : e.isBuildFinish = true → t.phase = .closed ∧ t.inFlight = 0
  goesOn : e.isBuildFinish = false → t.phase = .active ∧ t.Opens (seen ++ [e])

variable {seen rest : List Event} {s : Stream}

theorem Takes.mark {e : Event} {t : Stream} {notice : Notice} (h : Takes seen e t notice) :
    notice.mark? = e.mark? := by
  rw [Notice.mark?_eq_map, Event.mark?_eq_map, h.transition]

theorem takes_start (hs : s.phase = .active) (ho : s.Opens seen) {e : ProgressEvent}
    (he : e.progress = .started) :
    Takes seen (.progress e) (s.start e).1 (s.start e).2 := by
  obtain ⟨time, descriptor, progress⟩ := e
  obtain rfl : progress = .started := he
  refine ⟨rfl, rfl, (fun hf => nomatch hf), fun _ => ⟨hs, fun d hd => ?_⟩⟩
  rw [Mark.ofId_append] at hd
  rw [operation?_start]
  by_cases hid : descriptor.id = d.id
  · rw [Mark.ofId_cons_of_mark rfl hid] at hd
    obtain ⟨-, hm⟩ := List.append_eq_singleton_iff.mp hd |>.resolve_right (by simp)
    obtain rfl : descriptor = d := congrArg Mark.descriptor (List.singleton_inj.mp hm)
    exact ⟨_, if_pos rfl, rfl⟩
  · rw [Mark.ofId_cons_of_ne (by rintro m hm; cases hm; exact hid)] at hd
    rw [if_neg hid]
    exact ho d (by simpa [Mark.ofId] using hd)

/-- Where a finish comes in order, the operation is in flight with the descriptor of the finish. -/
theorem operation?_of_finish (ho : s.Opens seen) {e : ProgressEvent} {r : OperationResult}
    (he : e.progress = .finished r) (hp : Paired (seen ++ .progress e :: rest)) :
    Mark.ofId e.descriptor.id seen = [⟨e.descriptor, true⟩] ∧
      ∃ op, s.operation? e.descriptor.id = some op ∧ op.descriptor = e.descriptor := by
  obtain ⟨d, hd⟩ := hp e.descriptor.id
  have hm : Event.mark? (.progress e) = some ⟨e.descriptor, false⟩ := by
    simp [Event.mark?, he, Progress.isStart]
  rw [Mark.ofId_append, Mark.ofId_cons_of_mark hm rfl] at hd
  have hseen : Mark.ofId e.descriptor.id seen = [⟨e.descriptor, true⟩] := by
    obtain ⟨more, hmore⟩ := hd
    cases hl : Mark.ofId e.descriptor.id seen with
    | nil => simp [hl, Mark.nested] at hmore
    | cons a l =>
      rw [hl] at hmore
      cases l with
      | nil =>
        simp only [Mark.nested, List.map_cons, List.map_nil, List.reverse_singleton,
          List.cons_append, List.nil_append, List.cons.injEq] at hmore
        rw [hmore.1, ← (Mark.mk.inj hmore.2.1).1]
      | cons b l => simp [Mark.nested] at hmore
  exact ⟨hseen, ho _ hseen⟩

theorem takes_finish (hs : s.phase = .active) (ho : s.Opens seen) {e : ProgressEvent}
    {r : OperationResult} (he : e.progress = .finished r)
    (hp : Paired (seen ++ .progress e :: rest)) :
    ∃ t notice, s.finish e = .ok (t, notice) ∧ Takes seen (.progress e) t notice := by
  obtain ⟨hseen, op, hop, hdesc⟩ := operation?_of_finish ho he hp
  obtain ⟨time, descriptor, progress⟩ := e
  obtain rfl : progress = .finished r := he
  simp only at hseen hop hdesc
  simp only [finish, hop]
  refine ⟨_, _, rfl, by simp [Notice.kind, Event.kind, hdesc],
    by simp [Notice.transition?, Event.transition?, hdesc], ?_, ?_⟩
  · intro hb
    have hk : descriptor.kind = .build := by simpa [Event.isBuildFinish] using hb
    simp [hk, close, inFlight]
  · intro hb
    have hk : descriptor.kind ≠ .build := by simpa [Event.isBuildFinish] using hb
    rw [if_neg hk]
    refine ⟨hs, ?_⟩
    intro d hd
    rw [Mark.ofId_append] at hd
    by_cases hid : descriptor.id = d.id
    · rw [Mark.ofId_cons_of_mark rfl hid, ← hid, hseen] at hd
      simp at hd
    · rw [Mark.ofId_cons_of_ne (by rintro m hm; cases hm; exact hid)] at hd
      obtain ⟨other, hother, hd'⟩ := ho d (by simpa [Mark.ofId] using hd)
      exact ⟨other, (lookup_without (Ne.symm hid) _).trans hother, hd'⟩

theorem takes_status (hs : s.phase = .active) (ho : s.Opens seen) (e : StatusEvent) :
    Takes seen (.status e) (s.changeStatus e.change).1 (s.changeStatus e.change).2 := by
  refine ⟨rfl, rfl, (fun hf => nomatch hf), fun _ => ⟨hs, fun d hd => ?_⟩⟩
  rw [Mark.ofId_append, Mark.ofId_cons_of_ne (by rintro m hm; exact nomatch hm)] at hd
  exact ho d (by simpa [Mark.ofId] using hd)

/-- **Every event is accepted** when it comes in order. -/
theorem process_active (hs : s.phase = .active) (ho : s.Opens seen) {e : Event}
    (hp : Paired (seen ++ e :: rest)) :
    ∃ t notice, s.process e = .ok (t, notice) ∧ Takes seen e t notice := by
  cases e with
  | status e => exact ⟨_, _, rfl, takes_status hs ho e⟩
  | progress e =>
    obtain ⟨time, descriptor, progress⟩ := e
    cases progress with
    | started => exact ⟨_, _, rfl, takes_start hs ho rfl⟩
    | finished r => exact takes_finish hs ho rfl hp

theorem accept_active (hs : s.phase = .active) (ho : s.Opens seen) {e : Event}
    (hp : Paired (seen ++ e :: rest)) :
    ∃ t notice, s.accept e = .ok (t, notice) ∧ Takes seen e t notice := by
  have ha : s.accept e = s.process e := by simp [accept, hs]
  rw [ha]
  exact process_active hs ho hp

/-- The start of the build opens an idle stream. -/
theorem accept_idle (hs : s.phase = .idle) {e : Event} (he : e.isBuildStart = true)
    (hp : Paired (e :: rest)) :
    ∃ t notice, s.accept e = .ok (t, notice) ∧ Takes [] e t notice := by
  have ha : s.accept e = { s with phase := .active }.process e := by simp [accept, hs, he]
  rw [ha]
  have ho : Opens [] { s with phase := .active } := fun d hd => by simp [Mark.ofId] at hd
  exact process_active rfl ho hp

/-! ## 3. Feeding an orderly list -/

variable {listeners : Listeners} {past : List Call}

theorem feedAll_cons (listeners : Listeners) (past : List Call) (s : Stream) (e : Event)
    (events : List Event) :
    feedAll listeners past s (e :: events) =
      let o := s.feed listeners past e
      let rest := feedAll listeners (past ++ o.2.calls) o.1 events
      (rest.1, o.2 :: rest.2) := rfl

/-- The calls of listeners that some outcomes show, after those so far. -/
def remembered (past : List Call) (outcomes : List Outcome) : List Call :=
  past ++ outcomes.flatMap (·.calls)

theorem remembered_cons (past : List Call) (o : Outcome) (outcomes : List Outcome) :
    remembered past (o :: outcomes) = remembered (past ++ o.calls) outcomes := by
  rw [remembered, List.flatMap_cons, ← List.append_assoc, remembered]

/-- Feeding some events and then others is feeding all of them. -/
theorem feedAll_append (listeners : Listeners) (past : List Call) (s : Stream)
    (events more : List Event) :
    feedAll listeners past s (events ++ more) =
      let fed := feedAll listeners past s events
      let rest := feedAll listeners (remembered past fed.2) fed.1 more
      (rest.1, fed.2 ++ rest.2) := by
  induction events generalizing past s with
  | nil => simp [feedAll, remembered]
  | cons e events ih => simp only [List.cons_append, feedAll_cons, ih, remembered_cons]

theorem length_feedAll (listeners : Listeners) (past : List Call) (s : Stream)
    (events : List Event) : (feedAll listeners past s events).2.length = events.length := by
  induction events generalizing past s with
  | nil => rfl
  | cons e events ih => simp only [feedAll_cons, List.length_cons, ih]

/-- Where no report breaks, all events are delivered to the end. -/
theorem broken_feedAll (hn : listeners.NeverBreak) {events : List Event} {o : Outcome}
    (ho : o ∈ (feedAll listeners past s events).2) : o.broken = false := by
  induction events generalizing past s with
  | nil => exact nomatch ho
  | cons e events ih =>
    rcases List.mem_cons.mp ho with rfl | ho
    · exact broken_feed hn s past e
    · exact ih ho

/-- An event that was accepted, and told to the listeners for its kind. -/
structure Delivered (listeners : Listeners) (e : Event) (o : Outcome) : Prop where
  violation : o.violation = none
  told : ∃ notice, notice.kind = e.kind ∧ notice.transition? = e.transition? ∧
    o.Reaches listeners.diagnostics (listeners.seats notice)

theorem delivered_of_accept {e : Event} {t : Stream} {notice : Notice}
    (ha : s.accept e = .ok (t, notice)) (ht : Takes seen e t notice) (past : List Call) :
    Delivered listeners e (s.feed listeners past e).2 :=
  ⟨(tells_feed ha listeners past).violation, notice, ht.kind, ht.transition,
    reaches_feed ha listeners past⟩

theorem feed_of_neverClose (hn : listeners.NeverClose) {e : Event} {t : Stream} {notice : Notice}
    (ha : s.accept e = .ok (t, notice)) (past : List Call) :
    (s.feed listeners past e).1 = t ∧ ∀ c ∈ (s.feed listeners past e).2.calls,
      c.toSight = t.sight notice := by
  obtain ⟨ht, -, hsight⟩ := (tells_feed ha listeners past).of_neverClose (hn notice.kind)
  exact ⟨ht, hsight⟩

theorem feedAll_active (hn : listeners.NeverClose) {inner : List Event} {finish : Event}
    (hi : ∀ e ∈ inner, e.isBuildFinish = false) (hf : finish.isBuildFinish = true)
    (hs : s.phase = .active) (ho : s.Opens seen) (hp : Paired (seen ++ (inner ++ [finish]))) :
    (feedAll listeners past s (inner ++ [finish])).1.phase = .closed ∧
      (feedAll listeners past s (inner ++ [finish])).1.inFlight = 0 ∧
      List.Forall₂ (Delivered listeners) (inner ++ [finish])
        (feedAll listeners past s (inner ++ [finish])).2 := by
  induction inner generalizing s seen past with
  | nil =>
    obtain ⟨t, notice, ha, ht⟩ := accept_active hs ho hp
    obtain ⟨hnext, -⟩ := feed_of_neverClose hn ha past
    simp only [List.nil_append, feedAll, hnext]
    exact ⟨(ht.closes hf).1, (ht.closes hf).2, .cons (delivered_of_accept ha ht past) .nil⟩
  | cons e inner ih =>
    obtain ⟨t, notice, ha, ht⟩ := accept_active hs ho hp
    obtain ⟨hnext, -⟩ := feed_of_neverClose hn ha past
    obtain ⟨hphase, hopens⟩ := ht.goesOn (hi e (by simp))
    obtain ⟨h1, h2, h3⟩ := ih (fun x hx => hi x (by simp [hx])) hphase hopens (by simpa using hp)
    simp only [List.cons_append, feedAll_cons, hnext]
    exact ⟨h1, h2, .cons (delivered_of_accept ha ht past) h3⟩

/-- **Orderly events are all accepted**, and leave the stream closed with nothing in flight. -/
theorem feedAll_orderly (hn : listeners.NeverClose) {events : List Event} (h : Orderly events)
    (past : List Call) :
    (feedAll listeners past {} events).1.phase = .closed ∧
      (feedAll listeners past {} events).1.inFlight = 0 ∧
      List.Forall₂ (Delivered listeners) events (feedAll listeners past {} events).2 := by
  obtain ⟨start, inner, finish, rfl, hstart, hfinish, hinner⟩ := h.frame
  obtain ⟨t, notice, ha, ht⟩ := accept_idle (s := {}) rfl hstart h.paired
  obtain ⟨hnext, -⟩ := feed_of_neverClose hn ha past
  obtain ⟨hphase, hopens⟩ := ht.goesOn (Event.isBuildFinish_of_isBuildStart hstart)
  obtain ⟨h1, h2, h3⟩ := feedAll_active hn hinner hfinish hphase hopens h.paired
  simp only [feedAll_cons, hnext]
  exact ⟨h1, h2, .cons (delivered_of_accept ha ht past) h3⟩

/-- The beginning of orderly events is accepted as they are. -/
theorem feedAll_beginning (hn : listeners.NeverClose) {events more : List Event}
    (h : Orderly (events ++ more)) (past : List Call) :
    List.Forall₂ (Delivered listeners) events (feedAll listeners past {} events).2 := by
  obtain ⟨-, -, hd⟩ := feedAll_orderly hn h past
  rw [feedAll_append] at hd
  have hfront := List.forall₂_take_append _ _ _ hd
  rwa [length_feedAll, List.take_left] at hfront

theorem violation_of_delivered {events : List Event} {outcomes : List Outcome}
    (h : List.Forall₂ (Delivered listeners) events outcomes) :
    ∀ o ∈ outcomes, o.violation = none := by
  induction h with
  | nil => simp
  | cons hd _ ih =>
    intro o ho
    rcases List.mem_cons.mp ho with rfl | ho
    · exact hd.violation
    · exact ih o ho

/-! ## 4. What listeners are told -/

/-- What chosen listeners are told of an event; `pick` says which of the listeners for a kind is
chosen, by its place among them. -/
def Outcome.heard (pick : EventKind → Nat) (o : Outcome) : List Notice :=
  o.calls.filterMap fun c => if c.place = pick c.notice.kind then some c.notice else none

/-- The starts and finishes that chosen listeners are told of, in order. -/
def told (pick : EventKind → Nat) (outcomes : List Outcome) : List Mark :=
  (outcomes.flatMap (·.heard pick)).filterMap Notice.mark?

/-- The starts and finishes with their results. -/
def transitions (pick : EventKind → Nat) (outcomes : List Outcome) : List (Descriptor × Progress) :=
  (outcomes.flatMap (·.heard pick)).filterMap Notice.transition?

theorem told_eq_map (pick : EventKind → Nat) (outcomes : List Outcome) :
    told pick outcomes = (transitions pick outcomes).map Mark.ofTransition := by
  rw [told, transitions, List.map_filterMap]
  exact List.filterMap_congr fun n _ => n.mark?_eq_map

/-- Of those who are to be called, one is in the chosen place, if there is such a place. -/
theorem filterMap_seats (notice : Notice) (chosen place : Nat) (ls : List Listener) :
    (notice.seats place ls).filterMap
        (fun seat => if seat.2.1 = chosen then some seat.2.2 else none) =
      if place ≤ chosen ∧ chosen < place + ls.length then [notice] else [] := by
  induction ls generalizing place with
  | nil => simp [Notice.seats]
  | cons l ls ih =>
    have hcons : notice.seats place (l :: ls) = (l.name, place, notice) ::
      notice.seats (place + 1) ls := rfl
    rw [hcons, List.filterMap_cons, ih, List.length_cons]
    by_cases hp : place = chosen
    · rw [if_pos hp, if_neg (by omega), if_pos (by omega)]
    · simp only [if_neg hp]
      congr 1
      rw [eq_iff_iff]
      omega

/-- What the chosen listener is told if all are that are to be: the notice, if there is such a
listener, and otherwise as much or nothing. -/
theorem heard_of_reaches {o : Outcome} {d : Diagnostics} {notice : Notice}
    (h : o.Reaches d (listeners.seats notice)) (pick : EventKind → Nat) :
    let all := if pick notice.kind < (listeners.ofKind notice.kind).length then [notice] else []
    o.heard pick <+: all ∧ (o.broken = false → o.heard pick = all) := by
  intro all
  -- all that are called are told the same, so that the chosen place is the same for all
  have hall : (listeners.seats notice).filterMap (fun seat =>
      if seat.2.1 = pick seat.2.2.kind then some seat.2.2 else none) = all := by
    have hsame := filterMap_seats notice (pick notice.kind) 0 (listeners.ofKind notice.kind)
    simp only [Nat.zero_le, true_and, Nat.zero_add] at hsame
    refine Eq.trans (List.filterMap_congr fun seat hseat => ?_) hsame
    obtain ⟨l, -, rfl⟩ := List.mem_map.mp hseat
    rfl
  have hheard : o.heard pick = (o.calls.map (·.seat)).filterMap (fun seat =>
      if seat.2.1 = pick seat.2.2.kind then some seat.2.2 else none) := by
    rw [List.filterMap_map]
    rfl
  refine ⟨?_, fun hb => ?_⟩
  · rw [hheard, ← hall]
    exact h.reached.filterMap _
  · rw [hheard, h.all hb, hall]

/-- The chosen listener is told once, if there is one. -/
theorem heard_of_delivered {pick : EventKind → Nat} {e : Event} {o : Outcome}
    (h : Delivered listeners e o) (hb : o.broken = false) :
    (o.heard pick).filterMap Notice.transition? =
      if pick e.kind < (listeners.ofKind e.kind).length then e.transition?.toList else [] := by
  obtain ⟨notice, hk, hm, hr⟩ := h.told
  rw [(heard_of_reaches hr pick).2 hb, hk]
  split
  · cases he : e.transition? <;> simp [hm, he]
  · rfl

/-- **What is told** are the starts and finishes of the events, each to the chosen listener for its
kind if there is one. -/
theorem transitions_of_delivered {pick : EventKind → Nat} {events : List Event}
    {outcomes : List Outcome} (h : List.Forall₂ (Delivered listeners) events outcomes)
    (hb : ∀ o ∈ outcomes, o.broken = false) :
    transitions pick outcomes = (events.filterMap Event.transition?).filter fun t =>
      listeners.hears pick (.ofTransition t) := by
  induction h with
  | nil => rfl
  | @cons e o events outcomes hd _ ih =>
    rw [transitions, List.flatMap_cons, List.filterMap_append,
      heard_of_delivered hd (hb o List.mem_cons_self), ← transitions,
      ih fun o ho => hb o (List.mem_cons_of_mem _ ho)]
    cases ht : e.transition? with
    | none => simp [ht]
    | some t =>
      have hm : e.mark? = some (.ofTransition t) := by rw [Event.mark?_eq_map, ht, Option.map_some]
      rw [List.filterMap_cons_some ht, List.filter_cons, Event.kind_of_mark? hm, Listeners.hears]
      by_cases hp : pick (Mark.ofTransition t).kind <
        (listeners.ofKind (Mark.ofTransition t).kind).length <;> simp [hp]

theorem told_of_delivered {pick : EventKind → Nat} {events : List Event} {outcomes : List Outcome}
    (h : List.Forall₂ (Delivered listeners) events outcomes)
    (hb : ∀ o ∈ outcomes, o.broken = false) :
    told pick outcomes = (events.filterMap Event.mark?).filter (listeners.hears pick) := by
  have hmarks : events.filterMap Event.mark? =
      (events.filterMap Event.transition?).map Mark.ofTransition := by
    rw [List.map_filterMap]
    exact List.filterMap_congr fun e _ => e.mark?_eq_map
  rw [told_eq_map, transitions_of_delivered h hb, hmarks, List.filter_map]
  rfl

end Stream

end BuildStream
