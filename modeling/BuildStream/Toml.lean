/-
# TOML values

A TOML value as a tree, and how configuration is decoded from it.  No field of a configuration
takes a number with a fraction or a point in time, so both keep their text alone.

As a dialect TOML has no null, a variant that carries something is a table with one member, and
one that carries nothing may also be written as an empty table or list.
-/
import BuildStream.Decode

namespace BuildStream

/-- A TOML value. -/
inductive Toml where
  | text (s : String)
  | integer (n : Int)
  | float (text : String)
  | bool (b : Bool)
  | moment (text : String)
  | list (items : List Toml)
  | table (members : List (String × Toml))
deriving Repr, Inhabited

namespace Toml

/-- What a value is, for the error that refuses it. -/
def shape : Toml → Shape
  | .text s => .text s
  | .integer n => .integer n
  | .float s => .text s
  | .bool b => .bool b
  | .moment _ => .record
  | .list _ => .list
  | .table _ => .record

/-- A text. -/
def asText : Toml → Except DecodeError String
  | .text s => .ok s
  | v => .error (.invalidType v.shape "a string")

/-- A truth value. -/
def asBool : Toml → Except DecodeError Bool
  | .bool b => .ok b
  | v => .error (.invalidType v.shape "a boolean")

/-- A natural number up to a greatest one. -/
def asNatural (greatest : Nat) : Toml → Except DecodeError Nat
  | .integer n =>
    if 0 ≤ n ∧ n ≤ greatest then .ok n.toNat
    else .error (.invalidValue (.integer n) "a number in range")
  | v => .error (.invalidType v.shape "a number")

/-- The items of a list. -/
def asList : Toml → Except DecodeError (List Toml)
  | .list items => .ok items
  | v => .error (.invalidType v.shape "a sequence")

/-- The fields of a record.  In a list, items beyond the last field are passed over; a moment is a
record without a known field. -/
def asFields (names : List String) : Toml → Except DecodeError (Fields Toml)
  | .table members => Fields.ofMembers names members
  | .list items => .ok ⟨names.zip items, true⟩
  | .moment _ => .ok ⟨[], false⟩
  | v => .error (.invalidType v.shape "a record")

/-- The name of a variant, and what is written with it. -/
def asVariant : Toml → Except DecodeError (String × Option Toml)
  | .text s => .ok (s, none)
  | .table [(name, v)] => .ok (name, some v)
  | .table _ => .error (.invalidValue .record "map with a single key")
  | v => .error (.invalidType v.shape "string or map")

/-- Nothing, written as an empty table or list. -/
def asNothing : Toml → Except DecodeError Unit
  | .table [] => .ok ()
  | .list [] => .ok ()
  | v => .error (.invalidType v.shape "unit")

/-- TOML as a dialect. -/
def dialect : Dialect Toml where
  text := asText
  bool := asBool
  natural := asNatural
  value? := some
  list := asList
  fields := asFields
  variant := asVariant
  nothing := asNothing

end Toml

end BuildStream
