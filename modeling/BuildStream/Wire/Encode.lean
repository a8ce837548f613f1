/-
# Events on the wire: writing

The JSON form of ids, descriptors, failures, results and events.  A record whose form depends on
its variant carries the variant's name in one member: `channel` for an event, `type` for a
transition, `kind` for the details of an operation and `outcome` for a result.
-/
import BuildStream.Event
import BuildStream.Timestamp.Text

namespace BuildStream

namespace Wire

/-- An id. -/
def encodeId (id : OperationId) : Json :=
  .object [("kind", .string id.kind.text), ("scope", .nat id.scope.toNat),
    ("sequence", .nat id.sequence.toNat)]

/-- A moment. -/
def encodeTime (t : Timestamp) : Json := .string t.text

/-- The details of an operation. -/
def encodeDetails : Details → Json
  | .build => .object [("kind", .string "build")]
  | .task path project description =>
    .object [("kind", .string "task"), ("task_path", .string path),
      ("project_path", .string project), ("description", Json.ofOption .string description)]
  | .test suite className method =>
    .object [("kind", .string "test"), ("suite_name", Json.ofOption .string suite),
      ("class_name", Json.ofOption .string className),
      ("method_name", Json.ofOption .string method)]

/-- A descriptor. -/
def encodeDescriptor (d : Descriptor) : Json :=
  .object [("id", encodeId d.id), ("name", .string d.name),
    ("display_name", .string d.displayName), ("parent", Json.ofOption encodeId d.parent),
    ("details", encodeDetails d.details)]

mutual
/-- A failure. -/
def encodeFailure : Failure → Json
  | ⟨message, description, causes⟩ =>
    .object [("message", .string message), ("description", .string description),
      ("causes", .array (encodeFailures causes))]

/-- Failures in order. -/
def encodeFailures : List Failure → List Json
  | [] => []
  | f :: fs => encodeFailure f :: encodeFailures fs
end

/-- How an operation ended, and its times. -/
def encodeResult (r : OperationResult) : Json :=
  let times := [("start_time", encodeTime r.startTime), ("end_time", encodeTime r.endTime)]
  match r.ending with
  | .success upToDate =>
    .object ([("outcome", .string "success")] ++ times ++ [("up_to_date", .bool upToDate)])
  | .skipped reason =>
    .object ([("outcome", .string "skipped")] ++ times ++ [("reason", .string reason)])
  | .failed causes =>
    .object ([("outcome", .string "failed")] ++ times ++
      [("causes", .array (encodeFailures causes))])
  | .cancelled => .object ([("outcome", .string "cancelled")] ++ times)

/-- A transition. -/
def encodeProgress : Progress → Json
  | .started => .object [("type", .string "started")]
  | .finished r => .object [("type", .string "finished"), ("result", encodeResult r)]

/-- A change of the status line. -/
def encodeChange : StatusChange → Json
  | .started id description =>
    .object [("type", .string "started"), ("id", encodeId id),
      ("description", .string description)]
  | .finished id => .object [("type", .string "finished"), ("id", encodeId id)]

/-- An event. -/
def encodeEvent : Event → Json
  | .progress e =>
    .object [("channel", .string "progress"), ("event_time", encodeTime e.time),
      ("descriptor", encodeDescriptor e.descriptor), ("progress", encodeProgress e.progress)]
  | .status e =>
    .object [("channel", .string "status"), ("event_time", encodeTime e.time),
      ("change", encodeChange e.change)]

/-- The kinds a client subscribed to. -/
def encodeSubscriptions (s : Subscriptions) : Json :=
  .object [("task", .bool s.task), ("test", .bool s.test), ("status", .bool s.status)]

end Wire

end BuildStream
