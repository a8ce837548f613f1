/-
# What listening does to a stream

A listener can do one thing to the stream it listens to: close it.  So next to the stream with
listeners there is a stream with nobody listening (`Stream.ofEvents`), which goes its way by the
events alone, and the first is the second as long as nobody closed it (`feedAll_cases`).

The same holds at every single call: what a listener sees is what the event alone made of the
stream, closed if a listener closed it that was told of the event before (`sight_of_call`).
-/
import BuildStream.Proofs.Stream.Isolation

namespace BuildStream

namespace Stream

/-- A new stream after some events, with nobody listening. -/
def ofEvents (events : List Event) : Stream := (feedAll {} [] {} events).1

variable {listeners : Listeners} {past : List Call} {s t : Stream} {seen events : List Event}
  {e : Event} {notice : Notice}

/-- The stream after one more event. -/
theorem feedAll_concat (listeners : Listeners) (past : List Call) (s : Stream) (seen : List Event)
    (e : Event) :
    (feedAll listeners past s (seen ++ [e])).1 =
      ((feedAll listeners past s seen).1.feed listeners
        (remembered past (feedAll listeners past s seen).2) e).1 := by
  rw [feedAll_append]
  rfl

theorem ofEvents_concat (h : (ofEvents seen).accept e = .ok (t, notice)) :
    ofEvents (seen ++ [e]) = t := by
  rw [ofEvents, feedAll_concat]
  exact turn_of_accept h

theorem ofEvents_concat_of_error {v : StreamViolation} (h : (ofEvents seen).accept e = .error v) :
    ofEvents (seen ++ [e]) = ofEvents seen := by
  rw [ofEvents, feedAll_concat, ← ofEvents, feed_of_error h]

/-- **Orderly events are accepted** one after the other. -/
theorem accept_of_orderly {rest : List Event} (h : Orderly (seen ++ e :: rest)) :
    ∃ notice, (ofEvents seen).accept e = .ok (ofEvents (seen ++ [e]), notice) := by
  have hnone : Listeners.NeverClose {} := fun kind => by cases kind <;> exact fun _ h => nomatch h
  obtain ⟨-, -, hd⟩ := feedAll_orderly hnone h []
  have hv := violation_of_delivered hd _
    (List.mem_of_getElem? (outcome_feedAll {} [] {} seen e rest))
  cases ha : (ofEvents seen).accept e with
  | error v =>
    rw [← ofEvents, feed_of_error ha] at hv
    exact absurd hv (Option.some_ne_none v)
  | ok accepted =>
    obtain ⟨t, notice⟩ := accepted
    exact ⟨notice, by rw [ofEvents_concat ha]⟩

/-! ## 1. All events -/

/-- Nothing is accepted by a closed stream. -/
theorem feed_of_closed (h : s.phase = .closed) (listeners : Listeners) (past : List Call)
    (e : Event) : s.feed listeners past e = (s, { violation := some (.afterClose e.text) }) := by
  simp [feed, accept, h]

/-- **A stream with listeners** is the one with nobody listening, or closed. -/
theorem feedAll_cases (listeners : Listeners) (past : List Call) (seen : List Event) :
    (feedAll listeners past {} seen).1 = ofEvents seen ∨
      (feedAll listeners past {} seen).1.phase = .closed := by
  induction seen using List.reverseRecOn with
  | nil => exact .inl rfl
  | append_singleton seen e ih =>
    rw [feedAll_concat]
    rcases ih with hs | hs
    · rw [hs]
      cases ha : (ofEvents seen).accept e with
      | error v => exact .inl (by rw [ofEvents_concat_of_error ha, feed_of_error ha])
      | ok accepted =>
        obtain ⟨t, notice⟩ := accepted
        rw [ofEvents_concat ha]
        refine (tells_feed ha listeners _).final_cases.imp And.left ?_
        rintro ⟨hclosed, -⟩
        rw [hclosed]
        rfl
    · rw [feed_of_closed hs]
      exact .inr hs

/-- Every outcome is that of one of the events. -/
theorem exists_feed_of_mem {o : Outcome} (ho : o ∈ (feedAll listeners past s events).2) :
    ∃ before e after, events = before ++ e :: after ∧ ∃ sofar,
      o = ((feedAll listeners past s before).1.feed listeners sofar e).2 := by
  induction events generalizing past s with
  | nil => exact nomatch ho
  | cons e events ih =>
    rcases List.mem_cons.mp ho with rfl | ho
    · exact ⟨[], e, events, rfl, past, rfl⟩
    · obtain ⟨before, e', after, rfl, h⟩ := ih ho
      exact ⟨e :: before, e', after, rfl, h⟩

/-! ## 2. What listeners see -/

/-- **What a listener sees** when it is called: what the event made of the stream, and what the
listeners did to that which were told of the event before. -/
theorem sight_of_call {o : Outcome} (ho : o ∈ (feedAll listeners past {} events).2) {c : Call}
    {earlier later : List Call} (hc : o.calls = earlier ++ c :: later) :
    ∃ before e after notice, events = before ++ e :: after ∧
      (ofEvents before).accept e = .ok (ofEvents (before ++ [e]), notice) ∧
      c.toSight = ((ofEvents (before ++ [e])).afterCalls earlier).sight notice := by
  obtain ⟨before, e, after, rfl, sofar, rfl⟩ := exists_feed_of_mem ho
  refine ⟨before, e, after, ?_⟩
  rcases feedAll_cases listeners past before with hs | hs
  · rw [hs] at hc
    cases ha : (ofEvents before).accept e with
    | error v =>
      rw [feed_of_error ha] at hc
      exact absurd hc (by simp)
    | ok accepted =>
      obtain ⟨t, notice⟩ := accepted
      obtain ⟨l, -, hcall⟩ := (tells_feed ha listeners sofar).call earlier c later hc
      rw [ofEvents_concat ha]
      exact ⟨notice, rfl, rfl, by rw [hcall]; rfl⟩
  · rw [feed_of_closed hs] at hc
    exact absurd hc (by simp)

end Stream

end BuildStream
