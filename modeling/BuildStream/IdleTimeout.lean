/-
# Idle timeouts

How long an idle daemon is kept alive: a number of some unit, relayed as it was given.
-/
import BuildStream.Decode

namespace BuildStream

/-- A unit of time. -/
inductive TimeUnit where
  | milliseconds
  | seconds
  | minutes
  | hours
  | days
deriving DecidableEq, Repr

namespace TimeUnit

/-- The unit's name. -/
def text : TimeUnit → String
  | milliseconds => "milliseconds"
  | seconds => "seconds"
  | minutes => "minutes"
  | hours => "hours"
  | days => "days"

/-- The units by name. -/
def byName : List (String × TimeUnit) :=
  [("milliseconds", milliseconds), ("seconds", seconds), ("minutes", minutes), ("hours", hours),
    ("days", days)]

/-- The milliseconds of one unit. -/
def millis : TimeUnit → Nat
  | milliseconds => 1
  | seconds => 1000
  | minutes => 60 * 1000
  | hours => 60 * 60 * 1000
  | days => 24 * 60 * 60 * 1000

end TimeUnit

/-- A number of some unit. -/
structure IdleTimeout where
  value : UInt32
  unit : TimeUnit
deriving DecidableEq, Repr

namespace IdleTimeout

/-- The timeout in words. -/
def text (t : IdleTimeout) : String := Nat.repr t.value.toNat ++ " " ++ t.unit.text

/-- The length in milliseconds. -/
def millis (t : IdleTimeout) : Nat := t.value.toNat * t.unit.millis

/-- The timeout as a JSON value. -/
def encode (t : IdleTimeout) : Json :=
  .object [("value", .nat t.value.toNat), ("unit", .string t.unit.text)]

/-- Reads a timeout in any notation. -/
def decode {V : Type} (d : Dialect V) (v : V) : Except DecodeError IdleTimeout := do
  let f ← d.fields ["value", "unit"] v
  let value ← f.required "value" (d.natural (UInt32.size - 1))
  let unit ← f.required "unit" (d.nameOf TimeUnit.byName)
  return ⟨UInt32.ofNat value, unit⟩

end IdleTimeout

end BuildStream
