/-
# Delivering events

An accepted event is told to every listener registered for its kind, one after the other.  Before
a listener reacts, what it can see is recorded: the phase of the stream, how many operations are
in flight, and the operations around the one it is told about.  A listener that fails or panics is
reported and keeps no other from being told; one that closes the stream changes what the later
ones see.  Only a report that breaks ends the delivery of its event.

A stream that is drained gets all its events and is closed after the last.  A report that breaks
ends that too: the stream is left as it is and there is no report on the delivery.
-/
import BuildStream.Listener

namespace BuildStream

/-- What came of an event. -/
structure Stream.Outcome where
  violation : Option StreamViolation := none
  calls : List Call := []
  reports : List ListenerReport := []
  /-- Whether a report, the last, broke the delivery off. -/
  broken : Bool := false

namespace Stream

/-- The operations around the one of a notice. -/
def ancestorsOf (s : Stream) : Notice → List Operation
  | .operation _ op _ => s.ancestors op
  | .status _ => []

/-- What a listener sees that is told of something. -/
def sight (s : Stream) (notice : Notice) : Sight :=
  ⟨notice, s.phase, s.inFlight, s.ancestorsOf notice⟩

/-- The call of the listener in a place, given the calls so far. -/
def call (s : Stream) (notice : Notice) (place : Nat) (l : Listener) (past : List Call) : Call where
  toSight := s.sight notice
  listener := l.name
  place := place
  reaction := l.react past (s.sight notice)

/-- The stream after a reaction. -/
def after (s : Stream) (reaction : Reaction) : Stream := if reaction.closes then s.close else s

/-- Tells listeners, one after the other; the first stands in a place. -/
def tell (d : Diagnostics) (notice : Notice) (place : Nat) :
    List Listener → List Call → Stream → Stream × Outcome
  | [], _, s => (s, {})
  | l :: ls, past, s =>
    let call := s.call notice place l past
    let after := s.after call.reaction
    let report := call.report?
    if report.any d.breaksOn then
      (after, { calls := [call], reports := report.toList, broken := true })
    else
      let (final, rest) := tell d notice (place + 1) ls (past ++ [call]) after
      (final, { rest with calls := call :: rest.calls, reports := report.toList ++ rest.reports })

/-- Accepts an event and delivers it, given the calls of listeners so far. -/
def feed (s : Stream) (listeners : Listeners) (past : List Call) (e : Event) : Stream × Outcome :=
  match s.accept e with
  | .error v => (s, { violation := some v })
  | .ok (accepted, notice) =>
    tell listeners.diagnostics notice 0 (listeners.ofKind notice.kind) past accepted

/-- Feeds events one after the other, whatever comes of them. -/
def feedAll (listeners : Listeners) : List Call → Stream → List Event → Stream × List Outcome
  | _, s, [] => (s, [])
  | past, s, e :: es =>
    let (next, outcome) := s.feed listeners past e
    let (final, outcomes) := feedAll listeners (past ++ outcome.calls) next es
    (final, outcome :: outcomes)

/-- Feeds events one after the other, until one is broken off. -/
def feedUnbroken (listeners : Listeners) : List Call → Stream → List Event → Stream × List Outcome
  | _, s, [] => (s, [])
  | past, s, e :: es =>
    let (next, outcome) := s.feed listeners past e
    if outcome.broken then (next, [outcome])
    else
      let (final, outcomes) := feedUnbroken listeners (past ++ outcome.calls) next es
      (final, outcome :: outcomes)

end Stream

/-- The report on the delivery of a whole stream. -/
structure DeliveryReport where
  /-- How many events were accepted. -/
  delivered : Nat
  /-- The violations, in the order of arrival. -/
  violations : List StreamViolation
deriving DecidableEq, Repr

/-- What came of the delivery of a whole stream. -/
structure Delivery where
  /-- What came of the events, as far as they were taken. -/
  outcomes : List Stream.Outcome
  /-- The report; there is none if the delivery was broken off. -/
  report? : Option DeliveryReport

namespace DeliveryReport

/-- The report over the outcomes of all events. -/
def ofOutcomes (outcomes : List Stream.Outcome) : DeliveryReport where
  delivered := (outcomes.filter fun o => o.violation.isNone).length
  violations := outcomes.filterMap (·.violation)

end DeliveryReport

namespace Delivery

/-- The calls of listeners, in order. -/
def calls (d : Delivery) : List Call := d.outcomes.flatMap (·.calls)

/-- The reports of listeners that failed, in order. -/
def reports (d : Delivery) : List ListenerReport := d.outcomes.flatMap (·.reports)

end Delivery

namespace Stream

/-- Feeds all events and closes the stream, unless a report breaks. -/
def drain (s : Stream) (listeners : Listeners) (past : List Call) (events : List Event) :
    Stream × Delivery :=
  let (final, outcomes) := feedUnbroken listeners past s events
  if outcomes.any (·.broken) then (final, ⟨outcomes, none⟩)
  else (final.close, ⟨outcomes, some (.ofOutcomes outcomes)⟩)

end Stream

end BuildStream
