/-
# Events on the wire: reading

The reverse of the writer, and more generous: members may come in any order, unknown ones are
passed over, and a description, class or cause that is missing is absent.  `isNested` says whether
the value lies inside a tagged record, where tags may also be positions.
-/
import BuildStream.Event
import BuildStream.Json.Dialect
import BuildStream.Timestamp.Text

namespace BuildStream

namespace Wire

/-- What decoding a JSON value gives. -/
abbrev Decoded (α : Type) := Except DecodeError α

/-- A kind of operation. -/
def decodeKind (isNested : Bool) (v : Json) : Decoded OperationKind :=
  (Json.dialect isNested).nameOf OperationKind.byName v

/-- A word of 64 bits. -/
def decodeWord (v : Json) : Decoded UInt64 :=
  (Json.asNatural (UInt64.size - 1) v).map UInt64.ofNat

/-- An id. -/
def decodeId (isNested : Bool) (v : Json) : Decoded OperationId := do
  let f ← Json.asFields ["kind", "scope", "sequence"] v
  let kind ← f.required "kind" (decodeKind isNested)
  let scope ← f.required "scope" decodeWord
  let sequence ← f.required "sequence" decodeWord
  return ⟨kind, scope, sequence⟩

/-- A moment. -/
def decodeTime (v : Json) : Decoded Timestamp := do
  let s ← Json.asText v
  match Timestamp.read s with
  | some t => .ok t
  | none => .error (.invalidValue (.text s) "an RFC 3339 formatted date and time string")

/-- A text that may be null. -/
def decodeText? (v : Json) : Decoded (Option String) :=
  (Json.dialect false).option Json.asText v

/-- The details of an operation. -/
def decodeDetails (isNested : Bool) (v : Json) : Decoded Details := do
  let (variant, rest) ← Json.tagged isNested "kind" ["build", "task", "test"] v
  if variant = "build" then
    Json.noFields rest
    return .build
  else if variant = "task" then
    let f ← Json.asFields ["task_path", "project_path", "description"] rest
    let path ← f.required "task_path" Json.asText
    let project ← f.required "project_path" Json.asText
    let description ← f.withDefault "description" none decodeText?
    return .task path project description
  else
    let f ← Json.asFields ["suite_name", "class_name", "method_name"] rest
    let suite ← f.withDefault "suite_name" none decodeText?
    let className ← f.withDefault "class_name" none decodeText?
    let method ← f.withDefault "method_name" none decodeText?
    return .test suite className method

/-- A descriptor. -/
def decodeDescriptor (isNested : Bool) (v : Json) : Decoded Descriptor := do
  let f ← Json.asFields ["id", "name", "display_name", "parent", "details"] v
  let id ← f.required "id" (decodeId isNested)
  let name ← f.required "name" Json.asText
  let displayName ← f.required "display_name" Json.asText
  let parent ← f.optional "parent" ((Json.dialect isNested).option (decodeId isNested))
  let details ← f.required "details" (decodeDetails isNested)
  return ⟨id, name, displayName, parent, details⟩

/-- A failure nested no deeper than the fuel. -/
def decodeFailureTo : Nat → Json → Decoded Failure
  | 0, _ => .error (.invalidLength 0)
  | fuel + 1, v => do
    let f ← Json.asFields ["message", "description", "causes"] v
    let message ← f.required "message" Json.asText
    let description ← f.required "description" Json.asText
    let causes ← f.withDefault "causes" []
      ((Json.dialect false).listOf (decodeFailureTo fuel))
    return ⟨message, description, causes⟩

/-- A failure. -/
def decodeFailure (v : Json) : Decoded Failure := decodeFailureTo v.depth v

/-- How an operation ended, given the variant's name and its fields. -/
def decodeEnding (f : Fields Json) (variant : String) : Decoded Ending :=
  if variant = "success" then (f.required "up_to_date" Json.asBool).map .success
  else if variant = "skipped" then (f.required "reason" Json.asText).map .skipped
  else if variant = "failed" then
    (f.required "causes" ((Json.dialect true).listOf decodeFailure)).map .failed
  else .ok .cancelled

/-- The fields of a result beside its times. -/
def endingFields (variant : String) : List String :=
  if variant = "success" then ["up_to_date"]
  else if variant = "skipped" then ["reason"]
  else if variant = "failed" then ["causes"]
  else []

/-- A result. -/
def decodeResult (isNested : Bool) (v : Json) : Decoded OperationResult := do
  let (variant, rest) ←
    Json.tagged isNested "outcome" ["success", "skipped", "failed", "cancelled"] v
  let f ← Json.asFields (["start_time", "end_time"] ++ endingFields variant) rest
  let startTime ← f.required "start_time" decodeTime
  let endTime ← f.required "end_time" decodeTime
  let ending ← decodeEnding f variant
  return ⟨startTime, endTime, ending⟩

/-- A transition. -/
def decodeProgress (v : Json) : Decoded Progress := do
  let (variant, rest) ← Json.tagged true "type" ["started", "finished"] v
  if variant = "started" then
    Json.noFields rest
    return .started
  else
    let f ← Json.asFields ["result"] rest
    let result ← f.required "result" (decodeResult true)
    return .finished result

/-- A change of the status line. -/
def decodeChange (v : Json) : Decoded StatusChange := do
  let (variant, rest) ← Json.tagged true "type" ["started", "finished"] v
  if variant = "started" then
    let f ← Json.asFields ["id", "description"] rest
    let id ← f.required "id" (decodeId true)
    let description ← f.required "description" Json.asText
    return .started id description
  else
    let f ← Json.asFields ["id"] rest
    let id ← f.required "id" (decodeId true)
    return .finished id

/-- An event. -/
def decodeEvent (v : Json) : Decoded Event := do
  let (variant, rest) ← Json.tagged false "channel" ["progress", "status"] v
  if variant = "progress" then
    let f ← Json.asFields ["event_time", "descriptor", "progress"] rest
    let time ← f.required "event_time" decodeTime
    let descriptor ← f.required "descriptor" (decodeDescriptor true)
    let progress ← f.required "progress" decodeProgress
    return .progress ⟨time, descriptor, progress⟩
  else
    let f ← Json.asFields ["event_time", "change"] rest
    let time ← f.required "event_time" decodeTime
    let change ← f.required "change" decodeChange
    return .status ⟨time, change⟩

/-- The kinds a client subscribed to. -/
def decodeSubscriptions (v : Json) : Decoded Subscriptions := do
  let f ← Json.asFields ["task", "test", "status"] v
  let task ← f.required "task" Json.asBool
  let test ← f.required "test" Json.asBool
  let status ← f.required "status" Json.asBool
  return ⟨task, test, status⟩

end Wire

end BuildStream
