/-
# Forwarding hooks as events

Every hook becomes at most two events: progress of the operation and a change of the status line,
each only if the client subscribed to it.  The hooks of tasks and tests are left alone if neither
is wanted; those of builds never are.  When an operation starts its progress goes first, since
the start of the build opens the stream; when it finishes the status goes first, since the finish
of the build ends the stream.

A result that cannot be determined does not lose the finish: the operation is then reported as
failed.
-/
import BuildStream.Event
import BuildStream.Execution

namespace BuildStream

namespace Hook

/-- Whether a hook of a kind of operation is forwarded at all. -/
def forwards (s : Subscriptions) (kind : OperationKind) : Bool := s.wants kind || s.status

/-- Events of progress that are wanted. -/
def progressIf (wanted : Bool) (now : Timestamp) (d : Descriptor) (p : Progress) : List Event :=
  if wanted then [.progress ⟨now, d, p⟩] else []

/-- A change of the status line, if it is wanted. -/
def statusIf (s : Subscriptions) (now : Timestamp) (change : StatusChange) : List Event :=
  if s.status then [.status ⟨now, change⟩] else []

/-- The events of a start. -/
def started (s : Subscriptions) (now : Timestamp) (d : Descriptor) : List Event :=
  progressIf (s.wants d.kind) now d .started ++
    statusIf s now (.started d.id d.displayName)

/-- The events of a finish. -/
def finished (s : Subscriptions) (now : Timestamp) (d : Descriptor) (r : OperationResult) :
    List Event :=
  statusIf s now (.finished d.id) ++ progressIf (s.wants d.kind) now d (.finished r)

/-- The failure of an operation whose result could not be determined. -/
def undetermined (d : Descriptor) : Failure :=
  .ofMessage ("Could not determine the result of " ++ d.displayName)

/-- The result of a run, or a failure if it cannot be determined. -/
def resultOf (now : Timestamp) (d : Descriptor) (state : RunState) : OperationResult :=
  state.result?.getD ⟨state.startTime, now, .failed [undetermined d]⟩

/-- The events of a hook. -/
def events (s : Subscriptions) (now : Timestamp) : Hook → List Event
  | beforeBuild b => started s now b.descriptor
  | afterBuild b state => finished s now b.descriptor state.result
  | beforeTask t => if forwards s .task then started s now t.descriptor else []
  | afterTask t state =>
    if forwards s .task then finished s now t.descriptor (resultOf now t.descriptor state) else []
  | beforeTest t => if forwards s .test then started s now t.descriptor else []
  | afterTest t state =>
    if forwards s .test then finished s now t.descriptor (resultOf now t.descriptor state) else []

end Hook

end BuildStream
