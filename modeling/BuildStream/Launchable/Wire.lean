/-
# Launchables as JSON values

A native launchable is written with its payload as it is.  The payloads of this library's own
engine name one task by its path, or all tasks of a name.
-/
import BuildStream.Json.Dialect
import BuildStream.Launchable

namespace BuildStream

namespace NativeLaunchable

/-- The launchable as a JSON value. -/
def encode (l : NativeLaunchable) : Json :=
  .object [("display_name", .string l.displayName),
    ("description", Json.ofOption .string l.description), ("payload", l.payload)]

/-- Reads a launchable; the members of its payload have no order. -/
def decode (v : Json) : Except DecodeError NativeLaunchable := do
  let d := Json.dialect false
  let f ← Json.asFields ["display_name", "description", "payload"] v
  let displayName ← f.required "display_name" d.text
  let description ← f.withDefault "description" none (d.option d.text)
  let payload ← f.required "payload" (fun v => .ok v.canonical)
  return { displayName, description, payload }

end NativeLaunchable

/-- What a native launchable of this engine stands for. -/
inductive LaunchTarget where
  | task (path : TaskPath)
  | selector (name : String)
deriving DecidableEq, Repr

namespace LaunchTarget

/-- The payload of a target. -/
def encode : LaunchTarget → Json
  | task path => .object [("task", .object [("path", .string path)])]
  | selector name => .object [("selector", .object [("name", .string name)])]

/-- The names of the variants, in order. -/
def variantNames : List String := ["task", "selector"]

/-- The one text field of a variant.  Only in a written text may the record be a list. -/
def carried (allowsList : Bool) (name : String) : Option Json → Except DecodeError String
  | none => .error (.invalidType .unitVariant "struct variant")
  | some (.object members) =>
    (Json.asFields [name] (.object members)).bind fun f => f.required name Json.asText
  | some (.array items) =>
    if allowsList then
      (Json.asFields [name] (.array items)).bind fun f => f.required name Json.asText
    else .error (.invalidType .list "struct variant")
  | some v => .error (.invalidType v.shape "struct variant")

/-- Reads the payload of a target. -/
def decode (allowsList : Bool) (v : Json) : Except DecodeError LaunchTarget :=
  match Json.asVariant v with
  | .error e => .error e
  | .ok (variant, written) =>
    if variant = "task" then (carried allowsList "path" written).map .task
    else if variant = "selector" then (carried allowsList "name" written).map .selector
    else .error (.unknownVariant variant variantNames)

end LaunchTarget

end BuildStream
