/-
# Events

Everything an engine tells a client while a build runs: the start and the finish of builds, tasks
and tests, and changes of the status line.  A client subscribes to the finer kinds; the start and
finish of the build frame every stream and always come.
-/
import BuildStream.Descriptor
import BuildStream.Result

namespace BuildStream

/-- Which transition an event tells. -/
inductive Progress where
  | started
  | finished (result : OperationResult)
deriving Repr, BEq

/-- A transition of one operation. -/
structure ProgressEvent where
  time : Timestamp
  descriptor : Descriptor
  progress : Progress
deriving Repr, BEq

/-- A change of the status line. -/
inductive StatusChange where
  | started (id : OperationId) (description : String)
  | finished (id : OperationId)
deriving Repr, BEq

/-- A change of the status line at a time. -/
structure StatusEvent where
  time : Timestamp
  change : StatusChange
deriving Repr, BEq

/-- An event of a build's stream. -/
inductive Event where
  | progress (e : ProgressEvent)
  | status (e : StatusEvent)
deriving Repr, BEq

/-- What an event is about; it decides which listeners are told. -/
inductive EventKind where
  | build
  | task
  | test
  | status
deriving DecidableEq, Repr

namespace EventKind

/-- Events of a kind of operation. -/
def ofOperation : OperationKind → EventKind
  | .build => build
  | .task => task
  | .test => test

/-- The kind's name, capitalised. -/
def title : EventKind → String
  | build => "Build"
  | task => "Task"
  | test => "Test"
  | status => "Status"

end EventKind

namespace Progress

/-- The result of a finish. -/
def result? : Progress → Option OperationResult
  | started => none
  | finished r => some r

/-- The word for a transition. -/
def word : Progress → String
  | started => "started"
  | finished r => r.ending.word

end Progress

namespace ProgressEvent

/-- The event in words, such as `Task :app:compile started`. -/
def displayName (e : ProgressEvent) : String :=
  e.descriptor.displayName ++ " " ++ e.progress.word

end ProgressEvent

namespace StatusChange

/-- The operation whose status changed. -/
def id : StatusChange → OperationId
  | started i _ => i
  | finished i => i

/-- The change in words. -/
def text : StatusChange → String
  | started _ description => "status started: " ++ description
  | finished i => "status finished: " ++ i.text

end StatusChange

namespace Event

/-- What the event is about. -/
def kind : Event → EventKind
  | progress e => .ofOperation e.descriptor.kind
  | status _ => .status

/-- Whether the event starts a build. -/
def isBuildStart : Event → Bool
  | progress ⟨_, d, .started⟩ => d.kind == .build
  | _ => false

/-- Whether the event ends a build. -/
def isBuildFinish : Event → Bool
  | progress ⟨_, d, .finished _⟩ => d.kind == .build
  | _ => false

/-- The event in words. -/
def text : Event → String
  | progress e => e.displayName
  | status e => e.change.text

/-- When it happened. -/
def time : Event → Timestamp
  | progress e => e.time
  | status e => e.time

/-- The operation the event belongs to. -/
def id : Event → OperationId
  | progress e => e.descriptor.id
  | status e => e.change.id

end Event

/-- The kinds of events a client asked for, beside those of the build itself. -/
structure Subscriptions where
  task : Bool := false
  test : Bool := false
  status : Bool := false
deriving DecidableEq, Repr

namespace Subscriptions

/-- Every kind of event. -/
def all : Subscriptions := ⟨true, true, true⟩

/-- Whether progress of a kind of operation is wanted. -/
def wants (s : Subscriptions) : OperationKind → Bool
  | .build => true
  | .task => s.task
  | .test => s.test

end Subscriptions

end BuildStream
