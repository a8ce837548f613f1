/-
# Sessions

One builder, the requests built from it, and the sources of cancellation they name.  A request
that was built has a stream of its own; it shares with the other requests only the sources that
were cancelled, and what their listeners remember of the calls so far.

`step` is the whole of what can happen: settings change, requests are built, events are fed to a
request or delivered as a whole stream, streams are closed and sources cancelled.
-/
import BuildStream.Request
import BuildStream.Stream.Delivery

namespace BuildStream

/-- A request that was built, with its stream. -/
structure OpenRequest where
  request : Request
  stream : Stream := {}

/-- The builder, its requests and the sources cancelled so far. -/
structure Session where
  builder : Request := {}
  requests : List OpenRequest := []
  cancelled : List CancelSource := []
  /-- The calls of listeners so far, those of all requests, in order. -/
  past : List Call := []

/-- Something that happens in a session; requests are named by their number. -/
inductive Command where
  | set (setting : Request.Setting)
  | build
  | event (request : Nat) (e : Event)
  | deliver (request : Nat) (events : List Event)
  | close (request : Nat)
  | cancel (source : CancelSource)

/-- What a command gives. -/
inductive Reply where
  | done
  | refused (e : RequestError)
  | built (request : Nat)
  | fed (outcome : Stream.Outcome)
  | delivered (delivery : Delivery)

namespace Session

/-- The session with the stream of a request replaced. -/
def setStream (s : Session) (request : Nat) (stream : Stream) : Session :=
  { s with requests := s.requests.modify request fun r => { r with stream } }

/-- The polls of all requests: whether each is cancelled. -/
def polls (s : Session) : List Bool :=
  s.requests.map fun r => r.request.isCancelled s.cancelled

/-- One command; a request that does not exist takes no part in anything. -/
def step (fs : Files) (s : Session) : Command → Session × Reply
  | .set setting =>
    match s.builder.set fs setting with
    | .ok builder => ({ s with builder }, .done)
    | .error e => (s, .refused e)
  | .build =>
    ({ s with requests := s.requests ++ [{ request := s.builder }] },
      .built s.requests.length)
  | .event i e =>
    match s.requests[i]? with
    | none => (s, .done)
    | some r =>
      let (stream, outcome) := r.stream.feed r.request.listeners s.past e
      ({ s.setStream i stream with past := s.past ++ outcome.calls }, .fed outcome)
  | .deliver i events =>
    match s.requests[i]? with
    | none => (s, .done)
    | some r =>
      let (stream, delivery) := r.stream.drain r.request.listeners s.past events
      ({ s.setStream i stream with past := s.past ++ delivery.calls }, .delivered delivery)
  | .close i =>
    match s.requests[i]? with
    | none => (s, .done)
    | some r => (s.setStream i r.stream.close, .done)
  | .cancel source => ({ s with cancelled := source :: s.cancelled }, .done)

/-- Commands one after the other. -/
def run (fs : Files) : Session → List Command → Session × List Reply
  | s, [] => (s, [])
  | s, c :: cs =>
    let (next, reply) := s.step fs c
    let (final, replies) := run fs next cs
    (final, reply :: replies)

end Session

end BuildStream
