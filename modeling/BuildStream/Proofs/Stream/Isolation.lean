/-
# Failing listeners

A listener may fail or panic whenever it is told of something.  Nothing of that reaches the stream:
whatever the listeners do, short of closing it, the same events are accepted and the stream goes
through the same states.  Nor does it reach the other listeners, who are called with the same in the
same order; what differs is only who is reported (`feedAll_isolates`).

There is one way out of this.  A listener may hand over an error that cannot be rendered, and then
the report on it breaks and takes the delivery of the event with it, before the listeners that are
left were called (`isolates_unrenderable`).
-/
import BuildStream.Proofs.Stream.Routing

namespace BuildStream

/-! ## 1. What listeners are told and what they are reported for -/

/-- The kind of listeners that an event is for: that of the operation it finishes, as it started,
and in all other cases that of the event. -/
def Event.audience (s : Stream) (e : Event) : EventKind :=
  ((e.finished?.bind fun d => s.operation? d.id).map fun op =>
    .ofOperation op.descriptor.kind).getD e.kind

/-- An event is for the listeners of its own kind, unless it finishes an operation that started as
another. -/
theorem Event.audience_cases (s : Stream) (e : Event) :
    e.audience s = e.kind ∨ ∃ d op, e.finished? = some d ∧ s.operation? d.id = some op ∧
      op.descriptor.kind ≠ d.kind := by
  cases e with
  | status e => exact .inl rfl
  | progress e =>
    obtain ⟨time, d, progress⟩ := e
    cases progress with
    | started => exact .inl rfl
    | finished r =>
      cases hop : s.operation? d.id with
      | none => exact .inl (by simp [audience, finished?, hop])
      | some op =>
        by_cases hk : op.descriptor.kind = d.kind
        · exact .inl (by simp [audience, finished?, hop, hk, kind])
        · exact .inr ⟨d, op, rfl, hop, hk⟩

/-- The same names are registered for each kind, in the same order. -/
def Listeners.SameNames (ls ls' : Listeners) : Prop :=
  ∀ kind, (ls.ofKind kind).map (·.name) = (ls'.ofKind kind).map (·.name)

namespace Stream

variable {ls ls' : Listeners} {s t : Stream} {notice : Notice} {e : Event}

/-- What can be seen of an outcome beside what the listeners do: whether the event is refused, and
who is called and sees what. -/
def Outcome.shown (o : Outcome) : Option StreamViolation × List (String × Nat × Sight) :=
  (o.violation, o.calls.map fun c => (c.listener, c.place, c.toSight))

/-- An accepted event is told as one of its audience. -/
theorem kind_of_accept (ha : s.accept e = .ok (t, notice)) :
    notice.kind = e.audience s := by
  have hp := process_of_accept ha
  cases e with
  | status e =>
    obtain ⟨-, rfl⟩ := Prod.mk.inj (Except.ok.inj hp)
    rfl
  | progress e =>
    obtain ⟨time, d, progress⟩ := e
    cases progress with
    | started =>
      obtain ⟨-, rfl⟩ := Prod.mk.inj (Except.ok.inj hp)
      rfl
    | finished r =>
      obtain ⟨op, text, hop, rfl, -⟩ := finish_eq_ok hp
      have hop' : s.operation? d.id = some op := hop
      simp [Event.audience, Event.finished?, hop', Notice.kind]

/-! ## 2. Two runs -/

theorem seats_sameNames (hn : ls.SameNames ls') (notice : Notice) :
    ls.seats notice = ls'.seats notice := by
  have hnames (l : List Listener) : notice.seats 0 l =
      ((l.map (·.name)).zipIdx 0).map fun name => (name.1, name.2, notice) := by
    rw [Notice.seats, List.zipIdx_map, List.map_map]
    rfl
  rw [Listeners.seats, Listeners.seats, hnames, hnames, hn]

/-- What an event makes of a stream whose listeners do not close it, and how it is taken, does not
depend on them. -/
theorem feed_sameNames (h : ls.NeverClose) (h' : ls'.NeverClose) (past past' : List Call)
    (s : Stream) (e : Event) :
    (s.feed ls past e).1 = (s.feed ls' past' e).1 ∧
      (s.feed ls past e).2.violation = (s.feed ls' past' e).2.violation := by
  cases ha : s.accept e with
  | error v => simp only [feed_of_error ha, and_self]
  | ok accepted =>
    obtain ⟨t, notice⟩ := accepted
    rw [(feed_of_neverClose h ha past).1, (feed_of_neverClose h' ha past').1,
      (tells_feed ha ls past).violation, (tells_feed ha ls' past').violation]
    exact ⟨rfl, rfl⟩

/-- If no report breaks, the same listeners are called and see the same. -/
theorem shown_sameNames (hn : ls.SameNames ls') (h : ls.NeverClose) (h' : ls'.NeverClose)
    {past past' : List Call} (hb : (s.feed ls past e).2.broken = false)
    (hb' : (s.feed ls' past' e).2.broken = false) :
    (s.feed ls past e).2.shown = (s.feed ls' past' e).2.shown := by
  cases ha : s.accept e with
  | error v => simp only [feed_of_error ha]
  | ok accepted =>
    obtain ⟨t, notice⟩ := accepted
    have hshown {ls : Listeners} (h : ls.NeverClose) {past : List Call}
        (hb : (s.feed ls past e).2.broken = false) :
        (s.feed ls past e).2.shown = (none, (ls.seats notice).map fun seat =>
          (seat.1, seat.2.1, t.sight notice)) := by
      have htells := tells_feed ha ls past
      rw [Outcome.shown, htells.violation, ← (reaches_feed ha ls past).all hb, List.map_map]
      refine congrArg _ (List.map_congr_left fun c hc => ?_)
      rw [(feed_of_neverClose h ha past).2 c hc]
      rfl
    rw [hshown h hb, hshown h' hb', seats_sameNames hn]

theorem feedAll_sameNames (h : ls.NeverClose) (h' : ls'.NeverClose) (past past' : List Call)
    (s : Stream) (events : List Event) :
    (feedAll ls past s events).1 = (feedAll ls' past' s events).1 ∧
      (feedAll ls past s events).2.map (·.violation) =
        (feedAll ls' past' s events).2.map (·.violation) := by
  induction events generalizing past past' s with
  | nil => exact ⟨rfl, rfl⟩
  | cons e events ih =>
    obtain ⟨hs, hv⟩ := feed_sameNames h h' past past' s e
    obtain ⟨ihs, ihv⟩ := ih (past ++ (s.feed ls past e).2.calls)
      (past' ++ (s.feed ls' past' e).2.calls) (s.feed ls past e).1
    simp only [feedAll_cons, List.map_cons, hv, ← hs, ihs, ihv, and_self]

theorem feedAll_shown (hn : ls.SameNames ls') (h : ls.NeverClose) (h' : ls'.NeverClose)
    {past past' : List Call} {s : Stream} {events : List Event}
    (hb : ∀ o ∈ (feedAll ls past s events).2, o.broken = false)
    (hb' : ∀ o ∈ (feedAll ls' past' s events).2, o.broken = false) :
    (feedAll ls past s events).2.map Outcome.shown =
      (feedAll ls' past' s events).2.map Outcome.shown := by
  induction events generalizing past past' s with
  | nil => rfl
  | cons e events ih =>
    have hs := (feed_sameNames h h' past past' s e).1
    simp only [feedAll_cons, List.forall_mem_cons] at hb hb'
    have hrest := ih hb.2 (hs ▸ hb'.2)
    simp only [feedAll_cons, List.map_cons]
    rw [shown_sameNames hn h h' hb.1 hb'.1, hrest, hs]

/-- The outcome of an event among others. -/
theorem outcome_feedAll (ls : Listeners) (past : List Call) (s : Stream) (before : List Event)
    (e : Event) (after : List Event) :
    (feedAll ls past s (before ++ e :: after)).2[before.length]? =
      some ((feedAll ls past s before).1.feed ls
        (remembered past (feedAll ls past s before).2) e).2 := by
  have hlen := length_feedAll ls past s before
  rw [feedAll_append, List.getElem?_append_right (by omega), ← hlen, Nat.sub_self]
  rfl

/-- **Failures of listeners are isolated**, as far as they can be reported.

Take two runs of a stream over the same events, with listeners of the same names that may return,
fail or panic as they like at every call, in one run other than in the other, and remember other
calls.  Both runs end in the same state, and so does every part of them, and the same events are
refused.  If all reports get through, the same listeners are called, seeing the same.

Of every event that is accepted all listeners for its audience are told, each once and in the order
of their registration, in the state that the event made; and that is the state after any number of
these calls.  Only a report that breaks keeps those from being told that are left.  Exactly the
calls that fail or panic are reported, once each and in the order of the calls.  Of an event that is
refused nobody is told. -/
theorem feedAll_isolates (hn : ls.SameNames ls') (h : ls.NeverClose) (h' : ls'.NeverClose)
    (past past' : List Call) (s : Stream) (events : List Event) :
    let one := feedAll ls past s events
    let other := feedAll ls' past' s events
    one.1 = other.1 ∧ one.2.map (·.violation) = other.2.map (·.violation) ∧
      ((∀ o ∈ one.2, o.broken = false) → (∀ o ∈ other.2, o.broken = false) →
        one.2.map Outcome.shown = other.2.map Outcome.shown) ∧
      (ls.NeverBreak → ∀ o ∈ one.2, o.broken = false) ∧
      ∀ before e after, events = before ++ e :: after →
        let start := (feedAll ls past s before).1
        start = (feedAll ls' past' s before).1 ∧
          (∀ v, start.accept e = .error v →
            one.2[before.length]? = some { violation := some v }) ∧
          ∀ next notice, start.accept e = .ok (next, notice) →
            notice.kind = e.audience start ∧
            (feedAll ls past s (before ++ [e])).1 = next ∧
            (∀ n sofar, (tell ls.diagnostics notice 0 ((ls.ofKind notice.kind).take n)
              sofar next).1 = next) ∧
            ∃ o, one.2[before.length]? = some o ∧ o.violation = none ∧
              o.Reaches ls.diagnostics (ls.seats notice) ∧
              (∀ c ∈ o.calls, c.toSight = next.sight notice) ∧
              o.reports = o.calls.filterMap (·.report?) := by
  intro one other
  obtain ⟨hs, hv⟩ := feedAll_sameNames h h' past past' s events
  refine ⟨hs, hv, feedAll_shown hn h h', fun hb o ho => broken_feedAll hb ho, ?_⟩
  rintro before e after rfl
  have hat := outcome_feedAll ls past s before e after
  refine ⟨(feedAll_sameNames h h' past past' s before).1, fun v ha => ?_, fun next notice ha => ?_⟩
  · rw [hat, feed_of_error ha]
  · let remembers := remembered past (feedAll ls past s before).2
    have htells := tells_feed ha ls remembers
    obtain ⟨hnext, hsight⟩ := feed_of_neverClose h ha remembers
    refine ⟨kind_of_accept ha, ?_, fun n sofar => ?_, _, hat, htells.violation,
      htells.toReaches, hsight, htells.reports⟩
    · rw [feedAll_append]
      exact hnext
    · exact ((tells_tell ..).of_neverClose fun l hl => h _ l (List.mem_of_mem_take hl)).1

/-! Two listeners for builds, and the start of a build. -/

namespace Faulty

/-- The listeners, with what they do when they are told. -/
def listeners (first second : Reaction) : Listeners where
  build := [⟨"first", fun _ _ => first⟩, ⟨"second", fun _ _ => second⟩]

/-- The start of a build. -/
def start : Event := .progress ⟨.epoch, .ofBuild ⟨.build, 1, 1⟩, .started⟩

theorem neverClose {first second : Reaction} (h : first.closes = false)
    (h' : second.closes = false) : (listeners first second).NeverClose := by
  intro kind l hl past sight
  cases kind with
  | build =>
    rcases List.mem_pair.mp hl with rfl | rfl
    · exact h
    · exact h'
  | _ => exact nomatch hl

theorem sameNames (first second first' second' : Reaction) :
    (listeners first second).SameNames (listeners first' second') :=
  fun kind => by cases kind <;> rfl

end Faulty

/-- One listener fails and one panics, or both return: the stream comes to the same. -/
theorem isolates_sample :
    let faulty := Faulty.listeners { result := .fails (.error (.single "broke")) }
      { result := .panics .other }
    let quiet := Faulty.listeners {} {}
    faulty.SameNames quiet ∧ faulty.NeverClose ∧ quiet.NeverClose ∧
      (feedAll faulty [] {} [Faulty.start]).1 = (feedAll quiet [] {} [Faulty.start]).1 ∧
      (feedAll faulty [] {} [Faulty.start]).2.map Outcome.shown =
        (feedAll quiet [] {} [Faulty.start]).2.map Outcome.shown ∧
      (feedAll faulty [] {} [Faulty.start]).2.flatMap (fun o => o.reports.map (·.fault)) =
        [.error (.single "broke"), .error (.single "listener panicked: unknown panic")] := by
  intro faulty quiet
  have hn : faulty.SameNames quiet := Faulty.sameNames _ _ _ _
  have h : faulty.NeverClose := Faulty.neverClose rfl rfl
  have h' : quiet.NeverClose := Faulty.neverClose rfl rfl
  obtain ⟨hs, -, hshown, -, -⟩ := feedAll_isolates hn h h' [] [] {} [Faulty.start]
  exact ⟨hn, h, h', hs, hshown (by decide) (by decide), by decide⟩

/-- **An error that cannot be rendered is not isolated**: with the default diagnostics its report
breaks, and the second listener is not called. -/
theorem isolates_unrenderable :
    let faulty := Faulty.listeners { result := .fails .unrenderable } {}
    let quiet := Faulty.listeners {} {}
    faulty.SameNames quiet ∧ faulty.NeverClose ∧ quiet.NeverClose ∧
      (feedAll faulty [] {} [Faulty.start]).2.map (fun o => o.calls.map (·.listener)) =
        [["first"]] ∧
      (feedAll quiet [] {} [Faulty.start]).2.map (fun o => o.calls.map (·.listener)) =
        [["first", "second"]] :=
  ⟨Faulty.sameNames _ _ _ _, Faulty.neverClose rfl rfl, Faulty.neverClose rfl rfl, by decide,
    by decide⟩

end Stream

end BuildStream
