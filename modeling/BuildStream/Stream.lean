/-
# Streams of events

The client's side of one request.  A stream is idle until its build starts, active until the build
finishes or the stream is closed, and closed ever after.  An event outside that window, and a
finish of an operation that is not in flight, is a violation: it is refused and changes nothing.

The stream knows the operations in flight and the status lines of what is running.  Each accepted
start makes an operation of its own with a serial number, so that an operation started twice under
one id is two operations; the later replaces the earlier.  An operation refers to its parent by
serial number, and the reference leads somewhere as long as that very operation is in flight.  A
parent is older than its children, so its serial number is smaller.
-/
import BuildStream.Event

namespace BuildStream

/-! ## 1. The state -/

/-- The part of its life that a stream is in. -/
inductive Phase where
  | idle
  | active
  | closed
deriving DecidableEq, Repr

namespace Phase

/-- The phase's name. -/
def text : Phase → String
  | idle => "idle"
  | active => "active"
  | closed => "closed"

end Phase

/-- An operation made by an accepted start. -/
structure Operation where
  serial : Nat
  descriptor : Descriptor
  /-- The serial number of the operation that its parent id led to when it started. -/
  parent : Option Nat
deriving Repr

/-- The state of a stream. -/
structure Stream where
  phase : Phase := .idle
  /-- The operations in flight, by id. -/
  operations : List (OperationId × Operation) := []
  /-- The status lines of what is running, the latest first. -/
  statuses : List (OperationId × String) := []
  /-- The serial number of the next operation. -/
  nextSerial : Nat := 0

/-- What listeners are told. -/
inductive Notice where
  | operation (text : String) (operation : Operation) (progress : Progress)
  | status (description : String)
deriving Repr

namespace Notice

/-- The kind of listeners that are told. -/
def kind : Notice → EventKind
  | operation _ op _ => .ofOperation op.descriptor.kind
  | status _ => .status

/-- The notice in words. -/
def text : Notice → String
  | operation text _ _ => text
  | status description => description

end Notice

/-- Why an event was refused. -/
inductive StreamViolation where
  | beforeStart (event : String)
  | afterClose (event : String)
  | orphanFinish (operation : String)
deriving DecidableEq, Repr

namespace StreamViolation

/-- The words of a violation. -/
def message : StreamViolation → String
  | beforeStart event => "Received " ++ event ++ " before the build started"
  | afterClose event => "Received " ++ event ++ " after the event stream was closed"
  | orphanFinish operation =>
    "Received finish event for operation " ++ operation ++ " which was never started"

end StreamViolation

namespace Stream

/-! ## 2. Operations in flight -/

/-- The operation in flight under an id. -/
def operation? (s : Stream) (id : OperationId) : Option Operation := s.operations.lookup id

/-- How many operations are in flight. -/
def inFlight (s : Stream) : Nat := s.operations.length

/-- The operations without the one of an id. -/
def without (id : OperationId) (operations : List (OperationId × Operation)) :
    List (OperationId × Operation) :=
  operations.filter fun o => o.1 != id

/-- The operation in flight with a serial number. -/
def bySerial? (s : Stream) (serial : Nat) : Option Operation :=
  (s.operations.map (·.2)).find? fun op => op.serial == serial

/-- The operations in flight around one, innermost first, at most so many. -/
def ancestorsTo (s : Stream) : Nat → Operation → List Operation
  | 0, _ => []
  | fuel + 1, op =>
    match op.parent.bind s.bySerial? with
    | some above => above :: ancestorsTo s fuel above
    | none => []

/-- The operations in flight around one, innermost first.  Serial numbers fall from child to
parent, so there are no more of them than the operation's own. -/
def ancestors (s : Stream) (op : Operation) : List Operation := ancestorsTo s op.serial op

/-! ## 3. Events -/

/-- The stream after its end: nothing is in flight and nothing has a status. -/
def close (s : Stream) : Stream := { s with phase := .closed, operations := [], statuses := [] }

/-- An operation starts. -/
def start (s : Stream) (e : ProgressEvent) : Stream × Notice :=
  let parent := (e.descriptor.parent.bind s.operation?).map (·.serial)
  let op : Operation := ⟨s.nextSerial, e.descriptor, parent⟩
  let operations := without e.descriptor.id s.operations ++ [(e.descriptor.id, op)]
  ({ s with operations, nextSerial := s.nextSerial + 1 },
    .operation e.displayName op e.progress)

/-- An operation finishes; the finish of a build closes the stream. -/
def finish (s : Stream) (e : ProgressEvent) : Except StreamViolation (Stream × Notice) :=
  match s.operation? e.descriptor.id with
  | none => .error (.orphanFinish e.descriptor.displayName)
  | some op =>
    let rest := { s with operations := without e.descriptor.id s.operations }
    let after := if e.descriptor.kind = .build then rest.close else rest
    .ok (after, .operation e.displayName op e.progress)

/-- The status lines without the latest one of an id. -/
def popStatus (id : OperationId) : List (OperationId × String) → List (OperationId × String)
  | [] => []
  | (i, d) :: rest => if i = id then rest else (i, d) :: popStatus id rest

/-- A status line comes or goes. -/
def changeStatus (s : Stream) (change : StatusChange) : Stream × Notice :=
  let statuses :=
    match change with
    | .started id description => (id, description) :: s.statuses
    | .finished id => popStatus id s.statuses
  ({ s with statuses }, .status ((statuses.head?.map (·.2)).getD ""))

/-- An event that the phase allows. -/
def process (s : Stream) : Event → Except StreamViolation (Stream × Notice)
  | .progress e =>
    match e.progress with
    | .started => .ok (s.start e)
    | .finished _ => s.finish e
  | .status e => .ok (s.changeStatus e.change)

/-- Accepts an event or refuses it. -/
def accept (s : Stream) (e : Event) : Except StreamViolation (Stream × Notice) :=
  match s.phase with
  | .closed => .error (.afterClose e.text)
  | .idle =>
    if e.isBuildStart then { s with phase := .active }.process e
    else .error (.beforeStart e.text)
  | .active => s.process e

end Stream

end BuildStream
