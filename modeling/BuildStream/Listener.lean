/-
# Listeners

A listener is told of events and reacts.  What it does is its own affair: it may return, fail or
panic, close the stream that it is told by, and do something else each time.  It knows what it is
told and what it can see of the stream, and it may remember every call of any listener so far:
listeners share what they like, also those of different requests.  A listener is therefore a name
and a reaction to what it sees, given the calls so far.

Listeners are registered for one kind of event, and a client subscribes to the kinds it has
listeners for.  Their failures are told to somebody, who needs the text of the error to log it; an
error without one breaks the log, as a collaborator may break on any report.
-/
import BuildStream.Stream

namespace BuildStream

/-! ## 1. Calls -/

/-- How a listener comes back from a call. -/
inductive ListenerResult where
  | returns
  | fails (fault : Fault)
  | panics (payload : PanicPayload)
deriving DecidableEq, Repr

/-- What a listener does when it is told of something. -/
structure Reaction where
  /-- Whether it closes the stream that it is told by. -/
  closes : Bool := false
  result : ListenerResult := .returns
deriving DecidableEq, Repr

namespace Reaction

/-- The error that a reaction is reported as. -/
def problem? (r : Reaction) : Option Fault :=
  match r.result with
  | .returns => none
  | .fails fault => some fault
  | .panics payload => some (.error (.single ("listener panicked: " ++ payload.message)))

end Reaction

/-- What a listener is told, and what it can see of the stream. -/
structure Sight where
  notice : Notice
  phase : Phase
  inFlight : Nat
  /-- The operations in flight around the one of the notice, innermost first; one that left is not
  among them, also if somebody still holds on to an event of it. -/
  ancestors : List Operation

/-- One call of a listener. -/
structure Call extends Sight where
  /-- The listener's name. -/
  listener : String
  /-- The listener's place among those for events of this kind. -/
  place : Nat
  reaction : Reaction

/-- A listener. -/
structure Listener where
  name : String
  /-- The reaction to what it sees, given the calls so far. -/
  react : List Call → Sight → Reaction

/-! ## 2. Reports -/

/-- The report of a listener that failed. -/
structure ListenerReport where
  kind : EventKind
  event : String
  fault : Fault
deriving DecidableEq, Repr

namespace Call

/-- The report of a call that failed. -/
def report? (c : Call) : Option ListenerReport :=
  c.reaction.problem?.map fun fault => ⟨c.notice.kind, c.notice.text, fault⟩

end Call

/-- Who is told of failing listeners. -/
inductive Diagnostics where
  /-- They are logged, if warnings are shown. -/
  | log (shown : Bool)
  /-- A collaborator of a name, which panics on some reports. -/
  | collaborator (name : String) (panics : ListenerReport → Bool)

namespace Diagnostics

/-- Whether a report ends in a panic: that of the collaborator, or of the error that is logged. -/
def breaksOn (d : Diagnostics) (report : ListenerReport) : Bool :=
  match d with
  | log shown => shown && report.fault == .unrenderable
  | collaborator _ panics => panics report

end Diagnostics

/-! ## 3. Registrations -/

/-- The listeners of a request, in the order of their registration, and who is told of their
failures. -/
structure Listeners where
  status : List Listener := []
  build : List Listener := []
  task : List Listener := []
  test : List Listener := []
  diagnostics : Diagnostics := .log true

namespace Listeners

/-- The listeners for events of a kind. -/
def ofKind (ls : Listeners) : EventKind → List Listener
  | .build => ls.build
  | .task => ls.task
  | .test => ls.test
  | .status => ls.status

/-- Registers a listener after those that are there. -/
def register (ls : Listeners) (kind : EventKind) (l : Listener) : Listeners :=
  match kind with
  | .build => { ls with build := ls.build ++ [l] }
  | .task => { ls with task := ls.task ++ [l] }
  | .test => { ls with test := ls.test ++ [l] }
  | .status => { ls with status := ls.status ++ [l] }

/-- The kinds of events that some listener waits for. -/
def subscriptions (ls : Listeners) : Subscriptions where
  task := !ls.task.isEmpty
  test := !ls.test.isEmpty
  status := !ls.status.isEmpty

end Listeners

end BuildStream
