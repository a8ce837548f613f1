/-
# Reading JSON

The tokens of a text run through a machine whose state is the arrays and objects still open, the
innermost first, and what may come next.  A value is complete when nothing is open; after it no
token may follow.  At most 127 arrays and objects may be open at once.
-/
import BuildStream.Json.Token

namespace BuildStream

namespace Json

/-- An array or object still open, its finished items or members in reverse. -/
inductive Frame where
  | array (items : List Json)
  | object (members : List (String × Json))

/-- What may come next. -/
inductive Expectation where
  /-- A value, after a comma or a colon or at the start. -/
  | value
  /-- A value or the end of an array, after its opening bracket. -/
  | firstItem
  /-- A name or the end of an object, after its opening brace. -/
  | firstName
  /-- A name, after a comma. -/
  | name
  /-- A colon, after a name. -/
  | colon
  /-- A comma or the end of the innermost array or object. -/
  | comma
  /-- Nothing: the value is complete. -/
  | nothing

/-- A reader in the middle of a text. -/
structure Partial where
  frames : List Frame
  /-- The names of the members whose values are being read, innermost first. -/
  names : List String
  expects : Expectation
  result : Option Json

namespace Partial

/-- The reader before the first token. -/
def start : Partial := ⟨[], [], .value, none⟩

/-- How many arrays and objects may be open at once. -/
def maxDepth : Nat := 127

/-- A finished value goes to the innermost open array or object, or is the result. -/
def finish (p : Partial) (v : Json) : Option Partial :=
  match p.frames, p.names with
  | [], _ => some { p with expects := .nothing, result := some v }
  | .array items :: frames, _ =>
    some { p with frames := .array (v :: items) :: frames, expects := .comma }
  | .object members :: frames, name :: names =>
    some { p with
      frames := .object ((name, v) :: members) :: frames, names := names, expects := .comma }
  | .object _ :: _, [] => none

/-- Opens an array or object. -/
def push (p : Partial) (frame : Frame) (expects : Expectation) : Option Partial :=
  if p.frames.length ≥ maxDepth then none
  else some { p with frames := frame :: p.frames, expects := expects }

/-- Closes the innermost array. -/
def closeArray (p : Partial) : Option Partial :=
  match p.frames with
  | .array items :: frames => finish { p with frames := frames } (.array items.reverse)
  | _ => none

/-- Closes the innermost object. -/
def closeObject (p : Partial) : Option Partial :=
  match p.frames with
  | .object members :: frames => finish { p with frames := frames } (.object members.reverse)
  | _ => none

/-- A token where a value is expected. -/
def value (p : Partial) : JsonToken → Option Partial
  | .null => p.finish .null
  | .bool b => p.finish (.bool b)
  | .string s => p.finish (.string s)
  | .number n => p.finish (.number n)
  | .openBracket => p.push (.array []) .firstItem
  | .openBrace => p.push (.object []) .firstName
  | _ => none

/-- A token where the name of a member is expected. -/
def name (p : Partial) : JsonToken → Option Partial
  | .string s => some { p with names := s :: p.names, expects := .colon }
  | _ => none

/-- A comma inside the innermost array or object. -/
def comma (p : Partial) : Option Partial :=
  match p.frames with
  | .array _ :: _ => some { p with expects := .value }
  | .object _ :: _ => some { p with expects := .name }
  | [] => none

/-- One token. -/
def step (p : Partial) (token : JsonToken) : Option Partial :=
  match p.expects, token with
  | .value, t => p.value t
  | .firstItem, .closeBracket => p.closeArray
  | .firstItem, t => p.value t
  | .firstName, .closeBrace => p.closeObject
  | .firstName, t => p.name t
  | .name, t => p.name t
  | .colon, .colon => some { p with expects := .value }
  | .comma, .comma => p.comma
  | .comma, .closeBracket => p.closeArray
  | .comma, .closeBrace => p.closeObject
  | _, _ => none

/-- All tokens, one after the other. -/
def run (p : Partial) : List JsonToken → Option Partial
  | [] => some p
  | t :: ts =>
    match p.step t with
    | some p => run p ts
    | none => none

end Partial

/-- The value that tokens write. -/
def ofTokens (tokens : List JsonToken) : Option Json :=
  (Partial.start.run tokens).bind (·.result)

/-- The value that a text writes. -/
def parse (text : String) : Option Json := (JsonToken.ofText text).bind ofTokens

end Json

end BuildStream
