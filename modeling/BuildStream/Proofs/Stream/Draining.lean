/-
# Draining a stream

Whoever drains a stream feeds it what arrives and closes it after the last event.  So a drained
stream has one history: the calls before, the events in the order of their arrival, each of them
once, and a close (`feedAll_ofTurns`).  What listeners do in the meantime is no call of the drain,
and cannot keep it from going on, with one exception: a report that breaks ends the drain where it
is (`feedUnbroken_cases`).

The report adds up, since every event is accepted or refused, and refused for the reason that the
record of this history gives (`violations_feedAll`).  A listener that closes the stream ends nothing
but what comes after its event: the others are still told of it, and all that follows is refused and
told to nobody (`feedAll_of_closed`).
-/
import BuildStream.Proofs.Stream.Listening

namespace BuildStream

namespace Stream

variable {listeners : Listeners} {past : List Call} {log : Record} {s t : Stream}
  {notice : Notice} {e : Event} {events : List Event}

/-! ## 1. One history -/

/-- The calls of a stream that is fed some events, with what its listeners remember at each. -/
def handed : List Call → List Event → List Outcome → List Turn
  | past, e :: events, o :: outcomes => .event e past :: handed (past ++ o.calls) events outcomes
  | _, _, _ => []

/-- The stream after an event is the one after one more call. -/
theorem feed_ofTurns_eq (listeners : Listeners) (turns : List Turn) (past : List Call)
    (e : Event) : ((ofTurns listeners turns).feed listeners past e).1 =
      ofTurns listeners (turns ++ [.event e past]) := by
  rw [ofTurns_concat]
  rfl

/-- **Feeding events** is calling the stream with each of them, one after the other. -/
theorem feedAll_ofTurns (listeners : Listeners) (turns : List Turn) (past : List Call)
    (events : List Event) :
    (feedAll listeners past (ofTurns listeners turns) events).1 =
      ofTurns listeners (turns ++
        handed past events (feedAll listeners past (ofTurns listeners turns) events).2) := by
  induction events generalizing turns past with
  | nil => simp [feedAll, handed]
  | cons e events ih =>
    simp only [feedAll_cons, handed, feed_ofTurns_eq]
    rw [ih, List.append_assoc, List.singleton_append]

/-- Why each of the events is refused that come with some calls after others. -/
def refusals (listeners : Listeners) : List Turn → List Turn → List (Option StreamViolation)
  | _, [] => []
  | turns, .close :: calls => refusals listeners (turns ++ [.close]) calls
  | turns, .event e past :: calls =>
    (record listeners {} turns).refusal e :: refusals listeners (turns ++ [.event e past]) calls

/-- What comes of an event is a violation exactly if the record refuses it. -/
theorem Recorded.violation_feed (h : Recorded log s) (listeners : Listeners) (past : List Call)
    (e : Event) : (s.feed listeners past e).2.violation = log.refusal e := by
  rcases h.accept_cases e with ⟨v, ha, hr⟩ | ⟨t, notice, ha, hr, -⟩
  · rw [hr, feed_of_error ha]
  · rw [hr, (tells_feed ha listeners past).violation]

/-- **Which events are refused** is read off the history before each of them. -/
theorem violations_feedAll (listeners : Listeners) (turns : List Turn) (past : List Call)
    (events : List Event) :
    (feedAll listeners past (ofTurns listeners turns) events).2.map (·.violation) =
      refusals listeners turns
        (handed past events (feedAll listeners past (ofTurns listeners turns) events).2) := by
  induction events generalizing turns past with
  | nil => rfl
  | cons e events ih =>
    have hrecorded : Recorded (record listeners {} turns) (ofTurns listeners turns) :=
      recorded_nil.turns turns
    simp only [feedAll_cons, handed, feed_ofTurns_eq, List.map_cons, refusals]
    rw [hrecorded.violation_feed, ih]

/-- **A drain goes on to its end**, or to the first event whose delivery is broken off. -/
theorem feedUnbroken_cases (listeners : Listeners) (past : List Call) (s : Stream)
    (events : List Event) :
    (∀ o ∈ (feedAll listeners past s events).2, o.broken = false) ∧
        feedUnbroken listeners past s events = feedAll listeners past s events ∨
      ∃ before e after, events = before ++ e :: after ∧
        (∀ o ∈ (feedAll listeners past s before).2, o.broken = false) ∧
        (feedAll listeners past s (before ++ [e])).2.any (·.broken) = true ∧
        feedUnbroken listeners past s events = feedAll listeners past s (before ++ [e]) := by
  induction events generalizing past s with
  | nil => exact .inl ⟨by simp [feedAll], rfl⟩
  | cons e events ih =>
    cases hb : (s.feed listeners past e).2.broken with
    | true => exact .inr ⟨[], e, events, rfl, by simp [feedAll], by simp [feedAll, hb],
        by simp [feedAll, feedUnbroken, hb]⟩
    | false =>
      have hgo : feedUnbroken listeners past s (e :: events) =
          let o := s.feed listeners past e
          let rest := feedUnbroken listeners (past ++ o.2.calls) o.1 events
          (rest.1, o.2 :: rest.2) := by
        simp [feedUnbroken, hb]
      rw [hgo]
      rcases ih (past ++ (s.feed listeners past e).2.calls) (s.feed listeners past e).1 with
        ⟨hall, hsame⟩ | ⟨before, e', after, rfl, hbefore, hbreaks, hsame⟩
      · exact .inl ⟨by simpa [feedAll_cons, hb] using hall, by simp only [hsame, feedAll_cons]⟩
      · refine .inr ⟨e :: before, e', after, rfl, ?_, ?_, ?_⟩
        · simpa [feedAll_cons, hb] using hbefore
        · simpa [feedAll_cons, hb] using hbreaks
        · simp only [hsame, List.cons_append, feedAll_cons]

/-! ## 2. Closed streams -/

/-- Nothing that is fed to a closed stream is accepted, and nobody is told of it. -/
theorem feedAll_of_closed (hs : s.phase = .closed) (listeners : Listeners) (past : List Call)
    (events : List Event) :
    feedAll listeners past s events =
      (s, events.map fun e => { violation := some (.afterClose e.text) }) := by
  induction events generalizing past with
  | nil => rfl
  | cons e events ih => simp only [feedAll_cons, feed_of_closed hs, ih, List.map_cons]

/-- An event that ends the stream leaves nothing in it. -/
theorem close_of_accept (ha : s.accept e = .ok (t, notice)) (ht : t.phase = .closed) :
    t.close = t := by
  have hp := process_of_accept ha
  cases e with
  | status e =>
    obtain ⟨rfl, -⟩ := Prod.mk.inj (Except.ok.inj hp)
    exact nomatch ht
  | progress e =>
    obtain ⟨time, d, progress⟩ := e
    cases progress with
    | started =>
      obtain ⟨rfl, -⟩ := Prod.mk.inj (Except.ok.inj hp)
      exact nomatch ht
    | finished r =>
      have hf : finish _ ⟨time, d, .finished r⟩ = .ok (t, notice) := hp
      unfold finish at hf
      split at hf
      · exact nomatch hf
      · rw [← (Prod.mk.inj (Except.ok.inj hf)).1] at ht ⊢
        split
        · rfl
        · next hk =>
          rw [if_neg hk] at ht
          exact absurd ht (by simp)

/-- A closed stream is empty, so closing it again changes nothing. -/
def Emptied (_ : Record) (s : Stream) : Prop := s.phase = .closed → s.close = s

theorem kept_emptied : Kept Emptied where
  close _ := fun _ => rfl
  accept _ ha := close_of_accept ha

theorem emptied_nil : Emptied [] {} := fun h => nomatch h

theorem close_ofTurns {turns : List Turn} (h : (ofTurns listeners turns).phase = .closed) :
    (ofTurns listeners turns).close = ofTurns listeners turns :=
  kept_emptied.turns emptied_nil turns h

end Stream

/-! ## 3. Draining -/

/-- A report counts what was accepted, and lists why the rest was not. -/
theorem DeliveryReport.ofOutcomes_eq (outcomes : List Stream.Outcome) :
    ofOutcomes outcomes =
      ⟨(outcomes.map (·.violation)).count none, (outcomes.map (·.violation)).reduceOption⟩ := by
  have accepted : (outcomes.filter fun o => o.violation.isNone).length =
      (outcomes.map (·.violation)).count none := by
    rw [List.count, List.countP_map, List.countP_eq_length_filter]
    exact congrArg List.length <|
      List.filter_congr fun o _ => by cases ho : o.violation <;> simp [ho]
  have refused : outcomes.filterMap (·.violation) = (outcomes.map (·.violation)).reduceOption := by
    change _ = (outcomes.map (·.violation)).filterMap id
    rw [List.filterMap_map, Function.id_comp]
  rw [ofOutcomes, accepted, refused]

/-- Every outcome counts once, as accepted or as refused. -/
theorem DeliveryReport.delivered_add_violations (outcomes : List Stream.Outcome) :
    (ofOutcomes outcomes).delivered + (ofOutcomes outcomes).violations.length =
      outcomes.length := by
  induction outcomes with
  | nil => rfl
  | cons o outcomes ih =>
    simp only [ofOutcomes] at ih ⊢
    cases ho : o.violation <;> simp [ho] <;> omega

namespace Stream

/-- The outcomes of what comes after an event are those of feeding it to what the event left. -/
theorem drop_feedAll (listeners : Listeners) (past : List Call) (s : Stream) (before : List Event)
    (e : Event) (after : List Event) :
    (feedAll listeners past s (before ++ e :: after)).2.drop (before.length + 1) =
      (feedAll listeners (remembered past (feedAll listeners past s (before ++ [e])).2)
        (feedAll listeners past s (before ++ [e])).1 after).2 := by
  have hcut : before ++ e :: after = (before ++ [e]) ++ after := by simp
  have hlength : before.length + 1 = (feedAll listeners past s (before ++ [e])).2.length := by
    simp [length_feedAll]
  rw [hcut, feedAll_append, hlength, List.drop_left]

/-- If every report gets through, draining is feeding all events and closing the stream. -/
theorem drain_of_unbroken (hall : ∀ o ∈ (feedAll listeners past s events).2, o.broken = false) :
    s.drain listeners past events =
      let fed := feedAll listeners past s events
      (fed.1.close, ⟨fed.2, some (.ofOutcomes fed.2)⟩) := by
  rcases feedUnbroken_cases listeners past s events with ⟨-, hsame⟩ | ⟨b, e, a, rfl, -, hany, -⟩
  · have hnone : (feedAll listeners past s events).2.any (·.broken) = false := by simpa using hall
    simp [drain, hsame, hnone]
  · -- no outcome is broken, also not among those of a beginning
    refine absurd hany ?_
    have hcut : b ++ e :: a = (b ++ [e]) ++ a := by simp
    simp only [hcut, feedAll_append listeners past s (b ++ [e]) a, List.forall_mem_append] at hall
    simpa using hall.1

/-- **What comes of draining a stream**, with any listeners and after any calls.

If every report gets through, the stream has been fed every event once and in order, and then
closed, and the outcome of each is what it comes to after the calls and events before it.  Those
that the record refuses make the violations, in the order of their arrival, and the others are
counted; together these are all events.  The stream is closed with nothing in flight, and if it was
closed before the end of the drain, the end changes nothing.  If a report breaks, the drain ends
with its event: there is no report on the delivery, the events after it are not taken, and the
stream is left as it is.

An event that is accepted is told to all listeners for its audience, each once and in order, as long
as no report breaks, also after one of them closed the stream; and if one does, all that comes later
is refused because it comes after the close, with nobody told. -/
theorem drain_delivers (listeners : Listeners) (turns : List Turn) (past : List Call)
    (events : List Event) :
    let s := ofTurns listeners turns
    let fed := feedAll listeners past s events
    let drained := s.drain listeners past events
    let calls := handed past events fed.2
    let refused := refusals listeners turns calls
    (listeners.NeverBreak → ∀ o ∈ fed.2, o.broken = false) ∧
    ((∀ o ∈ fed.2, o.broken = false) →
      drained.1 = ofTurns listeners (turns ++ calls ++ [.close]) ∧
      drained.2.outcomes = fed.2 ∧
      drained.2.report? = some ⟨refused.count none, refused.reduceOption⟩ ∧
      refused.count none + refused.reduceOption.length = events.length ∧
      drained.1.phase = .closed ∧ drained.1.inFlight = 0 ∧
      (fed.1.phase = .closed → drained.1 = fed.1)) ∧
    ((∃ o ∈ fed.2, o.broken = true) → ∃ before e after, events = before ++ e :: after ∧
      let taken := feedAll listeners past s (before ++ [e])
      (∀ o ∈ (feedAll listeners past s before).2, o.broken = false) ∧
      taken.2.any (·.broken) = true ∧ drained = (taken.1, ⟨taken.2, none⟩)) ∧
    ∀ before e after, events = before ++ e :: after →
      let fedBefore := feedAll listeners past s before
      let present := ofTurns listeners (turns ++ handed past before fedBefore.2)
      let o := (present.feed listeners (remembered past fedBefore.2) e).2
      fed.2[before.length]? = some o ∧
      ∀ next notice, present.accept e = .ok (next, notice) →
        notice.kind = e.audience present ∧
        o.Reaches listeners.diagnostics (listeners.seats notice) ∧
        (o.broken = false → o.calls.map (fun c => (c.listener, c.notice)) =
          (listeners.ofKind (e.audience present)).map (fun l => (l.name, notice))) ∧
        ((∃ c ∈ o.calls, c.closes = true) → fed.2.drop (before.length + 1) =
          after.map fun e => { violation := some (.afterClose e.text) }) := by
  intro s fed drained calls refused
  have hfed : fed.1 = ofTurns listeners (turns ++ calls) :=
    feedAll_ofTurns listeners turns past events
  have hrefused : fed.2.map (·.violation) = refused :=
    violations_feedAll listeners turns past events
  refine ⟨fun hn o ho => broken_feedAll hn ho, fun hall => ?_, ?_, ?_⟩
  · have hdrained : drained = (fed.1.close, ⟨fed.2, some (.ofOutcomes fed.2)⟩) :=
      drain_of_unbroken hall
    have hreport : DeliveryReport.ofOutcomes fed.2 =
        ⟨refused.count none, refused.reduceOption⟩ := by
      rw [← hrefused, DeliveryReport.ofOutcomes_eq]
    refine ⟨?_, by rw [hdrained], by rw [hdrained, hreport], ?_, by rw [hdrained]; rfl,
      by rw [hdrained]; rfl, fun hclosed => ?_⟩
    · rw [hdrained, ofTurns_concat, ← hfed]
      rfl
    · have hsum := DeliveryReport.delivered_add_violations fed.2
      rwa [hreport, length_feedAll] at hsum
    · rw [hfed] at hclosed
      rw [hdrained, hfed, close_ofTurns hclosed]
  · rintro ⟨o, ho, hb⟩
    rcases feedUnbroken_cases listeners past s events with
      ⟨hall, -⟩ | ⟨b, e, a, hcut, hu, hany, hsame⟩
    · exact absurd hb (by simp [hall o ho])
    · refine ⟨b, e, a, hcut, hu, hany, ?_⟩
      simp only [drained, drain, hsame]
      rw [if_pos hany]
  · rintro before e after rfl
    intro fedBefore present o
    have hpresent : fedBefore.1 = present := feedAll_ofTurns listeners turns past before
    have ho : o = (fedBefore.1.feed listeners (remembered past fedBefore.2) e).2 := by
      rw [hpresent]
    refine ⟨ho ▸ outcome_feedAll listeners past s before e after, fun next notice ha => ?_⟩
    have htells := tells_feed ha listeners (remembered past fedBefore.2)
    refine ⟨kind_of_accept ha, htells.toReaches, fun hb => ?_, fun hcloses => ?_⟩
    · rw [← kind_of_accept ha]
      exact htells.toReaches.told hb
    · have hclosed : (feedAll listeners past s (before ++ [e])).1.phase = .closed := by
        rw [feedAll_concat]
        change (fedBefore.1.feed _ _ _).1.phase = _
        rw [hpresent]
        exact htells.phase.mpr (.inr hcloses)
      rw [drop_feedAll, feedAll_of_closed hclosed]

/-! Two listeners for builds of which the first closes the stream, the start of a build, and the
start of a task after it. -/

namespace Leaving

/-- The listeners. -/
def listeners : Listeners where
  build := [⟨"leaving", fun _ _ => { closes := true }⟩, ⟨"staying", fun _ _ => {}⟩]
  task := [⟨"of tasks", fun _ _ => {}⟩]

/-- The build. -/
def build : Descriptor := .ofBuild ⟨.build, 1, 1⟩

/-- The start of the build. -/
def start : Event := .progress ⟨.epoch, build, .started⟩

/-- The start of the task. -/
def task : Event := .progress ⟨.epoch, .ofTask ⟨.task, 1, 2⟩ ":app" none (some build.id), .started⟩

theorem neverBreak : listeners.NeverBreak := by
  intro kind l hl past sight fault hf
  cases kind with
  | build => rcases List.mem_pair.mp hl with rfl | rfl <;> exact nomatch hf
  | task =>
    obtain rfl := List.mem_singleton.mp hl
    exact nomatch hf
  | _ => exact nomatch hl

end Leaving

/-- Both listeners for builds are told of the build, and nobody of the task. -/
theorem drain_leaving :
    let drained := ({} : Stream).drain Leaving.listeners [] [Leaving.start, Leaving.task]
    Leaving.listeners.NeverBreak ∧
      drained.1.phase = .closed ∧
      drained.2.report? = some ⟨1, [.afterClose Leaving.task.text]⟩ ∧
      (({} : Stream).feed Leaving.listeners [] Leaving.start).2.calls.map (·.listener) =
        ["leaving", "staying"] ∧
      (feedAll Leaving.listeners [] {} [Leaving.start, Leaving.task]).2.drop 1 =
        [{ violation := some (.afterClose Leaving.task.text) }] := by
  intro drained
  obtain ⟨hall, hdrained, -, hevents⟩ :=
    drain_delivers Leaving.listeners [] [] [Leaving.start, Leaving.task]
  obtain ⟨-, -, hreport, -, hphase, -⟩ := hdrained (hall Leaving.neverBreak)
  obtain ⟨-, htold⟩ := hevents [] Leaving.start [Leaving.task] rfl
  obtain ⟨-, -, hcalls, hafter⟩ := htold _ _ rfl
  refine ⟨Leaving.neverBreak, hphase, hreport, ?_, ?_⟩
  · have hnames := congrArg (List.map Prod.fst) (hcalls rfl)
    simp only [List.map_map, Function.comp_def] at hnames
    exact hnames
  · exact hafter ⟨_, List.mem_cons_self, rfl⟩

/-- **An error that cannot be rendered ends the drain**: with the default diagnostics its report
breaks.  The event after it is not taken, there is no report on the delivery, and the stream is
left open with the build in flight. -/
theorem drain_unrenderable :
    let listeners := Faulty.listeners { result := .fails .unrenderable } {}
    let drained := ({} : Stream).drain listeners [] [Faulty.start, Leaving.task]
    drained.2.report? = none ∧ drained.2.outcomes.length = 1 ∧
      drained.2.calls.map (·.listener) = ["first"] ∧
      drained.1.phase = .active ∧ drained.1.inFlight = 1 := by decide

end Stream

end BuildStream
