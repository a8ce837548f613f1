/-
# Telling listeners

The listeners for an event are called one after the other, and each may do what it likes, with all
that was called before in its memory.  What that comes to is written down once, in `Tells`: who is
called and sees what, who is reported, and what becomes of the stream.  It is an induction on the
listeners that are left, and everything below that speaks of listeners starts from it.

Two things about the listeners matter to others: whether one closes the stream, and whether one
hands over an error on whose report the diagnostics break.  `Listeners.NeverClose` and
`Listeners.NeverBreak` say that this cannot happen, whatever they see and remember.
-/
import BuildStream.Stream.Delivery
import Mathlib.Data.List.Infix

namespace BuildStream

/-! ## 1. Calls -/

namespace Call

/-- Who was called, and what it was told. -/
def seat (c : Call) : String × Nat × Notice := (c.listener, c.place, c.notice)

/-- Whether the listener closed the stream. -/
def closes (c : Call) : Bool := c.reaction.closes

/-- Whether the report on the call breaks. -/
def breaks (d : Diagnostics) (c : Call) : Bool := c.report?.any d.breaksOn

end Call

/-- Who is to be called of some listeners, the first of which stands in a place. -/
def Notice.seats (notice : Notice) (place : Nat) (ls : List Listener) :
    List (String × Nat × Notice) :=
  (ls.zipIdx place).map fun l => (l.1.name, l.2, notice)

namespace Listeners

/-- Who is to be called of the listeners for the kind of a notice: each once, in the order of their
registration. -/
def seats (ls : Listeners) (notice : Notice) : List (String × Nat × Notice) :=
  notice.seats 0 (ls.ofKind notice.kind)

/-- No listener ever closes the stream. -/
def NeverClose (ls : Listeners) : Prop :=
  ∀ kind, ∀ l ∈ ls.ofKind kind, ∀ past sight, (l.react past sight).closes = false

/-- No listener ever hands over an error on whose report the diagnostics break. -/
def NeverBreak (ls : Listeners) : Prop :=
  ∀ kind, ∀ l ∈ ls.ofKind kind, ∀ past (sight : Sight) fault,
    (l.react past sight).problem? = some fault →
      ls.diagnostics.breaksOn ⟨sight.notice.kind, sight.notice.text, fault⟩ = false

/-- All listeners return, and do nothing else. -/
def Passive (ls : Listeners) : Prop :=
  ∀ kind, ∀ l ∈ ls.ofKind kind, ∀ past sight, l.react past sight = {}

theorem Passive.neverClose {ls : Listeners} (h : ls.Passive) : ls.NeverClose := by
  intro kind l hl past sight
  rw [h kind l hl past sight]

theorem Passive.neverBreak {ls : Listeners} (h : ls.Passive) : ls.NeverBreak := by
  intro kind l hl past sight fault hf
  rw [h kind l hl past sight] at hf
  exact nomatch hf

end Listeners

namespace Stream

variable {d : Diagnostics} {notice : Notice} {place : Nat} {ls : List Listener} {past : List Call}
  {s final : Stream} {o : Outcome} {listeners : Listeners} {e : Event}

/-- The stream after some calls of listeners. -/
def afterCalls (s : Stream) (calls : List Call) : Stream :=
  if calls.any (·.closes) then s.close else s

/-! ## 2. What telling comes to -/

/-- **Who is called**: all that are to be, once each and in order, or the first of them, up to one
on whose report the diagnostics break. -/
structure Outcome.Reaches (o : Outcome) (d : Diagnostics) (seats : List (String × Nat × Notice)) :
    Prop where
  reached : o.calls.map (·.seat) <+: seats
  all : o.broken = false → o.calls.map (·.seat) = seats
  last : o.broken = true ↔ ∃ c ∈ o.calls.getLast?, c.breaks d = true
  unbroken : ∀ c ∈ o.calls.dropLast, c.breaks d = false

/-- If none breaks, every listener for the kind is told the notice once, in order. -/
theorem Outcome.Reaches.told (h : o.Reaches d (listeners.seats notice)) (hb : o.broken = false) :
    o.calls.map (fun c => (c.listener, c.notice)) =
      (listeners.ofKind notice.kind).map fun l => (l.name, notice) := by
  have hseats (place : Nat) (ls : List Listener) :
      (notice.seats place ls).map (fun seat => (seat.1, seat.2.2)) =
        ls.map fun l => (l.name, notice) := by
    rw [Notice.seats, List.map_map, ← List.zipIdx_map_fst place ls, List.map_map,
      List.zipIdx_map_fst]
    rfl
  have hcalls := congrArg (List.map fun seat => (seat.1, seat.2.2)) (h.all hb)
  rwa [List.map_map, Listeners.seats, hseats] at hcalls

/-- **What telling some listeners comes to**, in a stream and given the calls so far. -/
structure Tells (d : Diagnostics) (notice : Notice) (place : Nat) (ls : List Listener)
    (past : List Call) (s final : Stream) (o : Outcome) : Prop
    extends o.Reaches d (notice.seats place ls) where
  violation : o.violation = none
  /-- Each sees the stream as the event left it, or closed by one called before, and reacts to
  that. -/
  call : ∀ before c after, o.calls = before ++ c :: after →
    ∃ l, (l, c.place) ∈ ls.zipIdx place ∧
      c = (s.afterCalls before).call notice c.place l (past ++ before)
  reports : o.reports = o.calls.filterMap (·.report?)
  final : final = s.afterCalls o.calls

theorem tells_nil : Tells d notice place [] past s s {} where
  violation := rfl
  reached := List.nil_prefix
  all _ := rfl
  last := by simp
  unbroken := by simp
  call _ _ _ h := by simp at h
  reports := rfl
  final := rfl

theorem afterCalls_cons (s : Stream) (c : Call) (calls : List Call) :
    s.afterCalls (c :: calls) = (s.after c.reaction).afterCalls calls := by
  unfold afterCalls after
  rw [List.any_cons, Call.closes]
  cases c.reaction.closes <;> simp [close]

theorem tell_of_breaks {l : Listener} (ls : List Listener)
    (hb : (s.call notice place l past).breaks d = true) :
    tell d notice place (l :: ls) past s =
      let call := s.call notice place l past
      (s.after call.reaction,
        { calls := [call], reports := call.report?.toList, broken := true }) :=
  if_pos hb

theorem tell_of_unbroken {l : Listener} (ls : List Listener)
    (hb : (s.call notice place l past).breaks d = false) :
    tell d notice place (l :: ls) past s =
      let call := s.call notice place l past
      let rest := tell d notice (place + 1) ls (past ++ [call]) (s.after call.reaction)
      (rest.1, { rest.2 with
        calls := call :: rest.2.calls, reports := call.report?.toList ++ rest.2.reports }) :=
  if_neg (by rw [← Call.breaks, hb]; exact Bool.false_ne_true)

/-- A report that breaks is the last. -/
theorem tells_broken (l : Listener) (ls : List Listener)
    (hb : (s.call notice place l past).breaks d = true) :
    Tells d notice place (l :: ls) past s (s.after (s.call notice place l past).reaction) {
      calls := [s.call notice place l past]
      reports := (s.call notice place l past).report?.toList
      broken := true } where
  violation := rfl
  reached := ⟨notice.seats (place + 1) ls, rfl⟩
  all h := nomatch h
  last := by simpa using hb
  unbroken := by simp
  call before c after h := by
    cases before with
    | nil =>
      obtain ⟨rfl, -⟩ := List.cons.inj h
      exact ⟨l, List.mem_cons_self, by rw [List.append_nil]; rfl⟩
    | cons first before => simp at h
  reports := by simp [List.filterMap_cons]; cases (s.call notice place l past).report? <;> rfl
  final := (afterCalls_cons s _ []).symm

/-- After a report that does not break, the others are told. -/
theorem Tells.cons {l : Listener}
    (hb : (s.call notice place l past).breaks d = false)
    (h : Tells d notice (place + 1) ls (past ++ [s.call notice place l past])
      (s.after (s.call notice place l past).reaction) final o) :
    Tells d notice place (l :: ls) past s final { o with
      calls := s.call notice place l past :: o.calls
      reports := (s.call notice place l past).report?.toList ++ o.reports } where
  violation := h.violation
  reached := (List.prefix_cons_inj _).mpr h.reached
  all ho := congrArg _ (h.all ho)
  last := by
    rw [h.last, List.getLast?_cons]
    cases hl : o.calls.getLast? <;> simp [hb]
  unbroken c hc := by
    cases hl : o.calls with
    | nil => simp [hl] at hc
    | cons first rest =>
      rw [hl, List.dropLast_cons_of_ne_nil (List.cons_ne_nil _ _), List.mem_cons, ← hl] at hc
      exact hc.elim (fun hc => hc ▸ hb) (h.unbroken c)
  call before c after hc := by
    cases before with
    | nil =>
      obtain ⟨rfl, -⟩ := List.cons.inj hc
      exact ⟨l, List.mem_cons_self, by rw [List.append_nil]; rfl⟩
    | cons first before =>
      obtain ⟨rfl, hrest⟩ := List.cons.inj hc
      obtain ⟨l', hl', hcall⟩ := h.call before c after hrest
      refine ⟨l', List.mem_cons_of_mem _ hl', ?_⟩
      rw [afterCalls_cons]
      simpa using hcall
  reports := by
    rw [h.reports, List.filterMap_cons]
    cases (s.call notice place l past).report? <;> rfl
  final := by rw [afterCalls_cons, h.final]

theorem tells_tell (d : Diagnostics) (notice : Notice) (place : Nat) (ls : List Listener)
    (past : List Call) (s : Stream) :
    Tells d notice place ls past s (tell d notice place ls past s).1
      (tell d notice place ls past s).2 := by
  induction ls generalizing place past s with
  | nil => exact tells_nil
  | cons l ls ih =>
    cases hb : (s.call notice place l past).breaks d with
    | true =>
      rw [tell_of_breaks ls hb]
      exact tells_broken l ls hb
    | false =>
      rw [tell_of_unbroken ls hb]
      exact (ih (place + 1) _ _).cons hb

/-! ## 3. Listeners one by one -/

section Tells

variable (h : Tells d notice place ls past s final o)

include h

/-- A listener that is called sees the stream as the event left it, or closed by one called
before. -/
theorem Tells.exists_call {c : Call} (hc : c ∈ o.calls) :
    ∃ l ∈ ls, ∃ sofar, c = s.call notice c.place l sofar ∨
      (∃ c' ∈ o.calls, c'.closes = true) ∧ c = s.close.call notice c.place l sofar := by
  obtain ⟨before, after, hsplit⟩ := List.append_of_mem hc
  obtain ⟨l, hl, hcall⟩ := h.call before c after hsplit
  refine ⟨l, List.fst_mem_of_mem_zipIdx hl, past ++ before, ?_⟩
  unfold afterCalls at hcall
  split at hcall
  · next hclosed =>
    obtain ⟨c', hc', hcloses⟩ := List.any_eq_true.mp hclosed
    exact .inr ⟨⟨c', hsplit ▸ List.mem_append_left _ hc', hcloses⟩, hcall⟩
  · exact .inl hcall

theorem Tells.notice_of_mem {c : Call} (hc : c ∈ o.calls) : c.notice = notice := by
  obtain ⟨l, -, sofar, hcall | ⟨-, hcall⟩⟩ := h.exists_call hc <;> rw [hcall] <;> rfl

/-- What a listener does that is called is its reaction to what it sees. -/
theorem Tells.exists_react {c : Call} (hc : c ∈ o.calls) :
    ∃ l ∈ ls, ∃ sofar, c.reaction = l.react sofar c.toSight := by
  obtain ⟨l, hl, sofar, hcall | ⟨-, hcall⟩⟩ := h.exists_call hc
  · exact ⟨l, hl, sofar, by rw [hcall]; rfl⟩
  · exact ⟨l, hl, sofar, by rw [hcall]; rfl⟩

/-- Whoever is told leaves the stream as it is, or closes it. -/
theorem Tells.final_cases :
    final = s ∧ (∀ c ∈ o.calls, c.closes = false) ∨
      final = s.close ∧ ∃ c ∈ o.calls, c.closes = true := by
  rw [h.final, afterCalls]
  split
  · next hclosed => exact .inr ⟨rfl, by simpa using hclosed⟩
  · next hopen => exact .inl ⟨rfl, by simpa using hopen⟩

/-- The stream is closed after the calls if it was before, or if a listener closed it. -/
theorem Tells.phase :
    final.phase = .closed ↔ s.phase = .closed ∨ ∃ c ∈ o.calls, c.closes = true := by
  rcases h.final_cases with ⟨rfl, hopen⟩ | ⟨rfl, hclosed⟩
  · simpa using fun c hc hcloses => absurd hcloses (by simp [hopen c hc])
  · exact ⟨fun _ => .inr hclosed, fun _ => rfl⟩

/-- Listeners that do not close the stream leave it as it is, and all of them see that. -/
theorem Tells.of_neverClose (hn : ∀ l ∈ ls, ∀ past sight, (l.react past sight).closes = false) :
    final = s ∧ (∀ c ∈ o.calls, c.closes = false) ∧ ∀ c ∈ o.calls, c.toSight = s.sight notice := by
  have hopen : ∀ c ∈ o.calls, c.closes = false := fun c hc => by
    obtain ⟨l, hl, sofar, hreact⟩ := h.exists_react hc
    rw [Call.closes, hreact, hn l hl]
  refine ⟨?_, hopen, fun c hc => ?_⟩
  · rcases h.final_cases with ⟨hs, -⟩ | ⟨-, c, hc, hcloses⟩
    · exact hs
    · exact absurd hcloses (by simp [hopen c hc])
  · obtain ⟨l, -, sofar, hcall | ⟨⟨c', hc', hcloses⟩, -⟩⟩ := h.exists_call hc
    · rw [hcall]
      rfl
    · exact absurd hcloses (by simp [hopen c' hc'])

end Tells

/-! ## 4. Feeding an event -/

theorem feed_of_error {v : StreamViolation} (ha : s.accept e = .error v) (listeners : Listeners)
    (past : List Call) : s.feed listeners past e = (s, { violation := some v }) := by
  rw [feed, ha]

/-- **What comes of an event that is accepted** is what telling the listeners for its notice comes
to. -/
theorem tells_feed {t : Stream} (ha : s.accept e = .ok (t, notice)) (listeners : Listeners)
    (past : List Call) :
    Tells listeners.diagnostics notice 0 (listeners.ofKind notice.kind) past t
      (s.feed listeners past e).1 (s.feed listeners past e).2 := by
  rw [feed, ha]
  exact tells_tell _ _ _ _ _ _

theorem reaches_feed {t : Stream} (ha : s.accept e = .ok (t, notice)) (listeners : Listeners)
    (past : List Call) :
    (s.feed listeners past e).2.Reaches listeners.diagnostics (listeners.seats notice) :=
  (tells_feed ha listeners past).toReaches

/-- A call that breaks is one that fails, on whose report the diagnostics break. -/
theorem breaks_eq_false (hn : listeners.NeverBreak) {l : Listener} {kind : EventKind}
    (hl : l ∈ listeners.ofKind kind) {c : Call} {sofar : List Call}
    (hc : c.reaction = l.react sofar c.toSight) : c.breaks listeners.diagnostics = false := by
  rw [Call.breaks, Call.report?, hc]
  cases hp : (l.react sofar c.toSight).problem? with
  | none => rfl
  | some fault => exact hn kind l hl sofar c.toSight fault hp

/-- Where no report breaks, the delivery of an event goes on to its end. -/
theorem broken_feed (hn : listeners.NeverBreak) (s : Stream) (past : List Call) (e : Event) :
    (s.feed listeners past e).2.broken = false := by
  cases ha : s.accept e with
  | error v => rw [feed_of_error ha]
  | ok accepted =>
    obtain ⟨t, notice⟩ := accepted
    have h := tells_feed ha listeners past
    rw [← Bool.not_eq_true, h.last]
    rintro ⟨c, hc, hbreaks⟩
    obtain ⟨l, hl, sofar, hreact⟩ := h.exists_react (List.mem_of_getLast? hc)
    exact absurd hbreaks (by simp [breaks_eq_false hn hl hreact])

end Stream

end BuildStream
