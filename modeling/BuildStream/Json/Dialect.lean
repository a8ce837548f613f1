/-
# Decoding JSON values

JSON as a dialect.  A record is an object or the array of its fields in order, a variant is its
name or an object whose one member has that name, and null stands for what is absent.

Tagged records carry the name of their variant in one member.  The members of such a record are
read after the tag is known; inside one, a tag may also be the variant's position, and an empty
object may stand for nothing.
-/
import BuildStream.Decode

namespace BuildStream

namespace Json

/-- What a value is, for the message that refuses it. -/
def shape : Json → Shape
  | .null => .null
  | .bool b => .bool b
  | .number (.integer n) => .integer n
  | .number (.decimal d) => .decimal d
  | .string s => .text s
  | .array _ => .list
  | .object _ => .record

/-- A text. -/
def asText : Json → Except DecodeError String
  | .string s => .ok s
  | v => .error (.invalidType v.shape "a string")

/-- A truth value. -/
def asBool : Json → Except DecodeError Bool
  | .bool b => .ok b
  | v => .error (.invalidType v.shape "a boolean")

/-- A natural number up to a greatest one. -/
def asNatural (greatest : Nat) : Json → Except DecodeError Nat
  | .number (.integer n) =>
    if 0 ≤ n ∧ n ≤ greatest then .ok n.toNat
    else .error (.invalidValue (.integer n) "a number in range")
  | v => .error (.invalidType v.shape "a number")

/-- A value that is not null. -/
def nonNull? : Json → Option Json
  | .null => none
  | v => some v

/-- The items of an array. -/
def asList : Json → Except DecodeError (List Json)
  | .array items => .ok items
  | v => .error (.invalidType v.shape "a sequence")

/-- The fields of a record. -/
def asFields (names : List String) : Json → Except DecodeError (Fields Json)
  | .object members => Fields.ofMembers names members
  | .array items => Fields.ofItems names items
  | v => .error (.invalidType v.shape "a record")

/-- The name of a variant, and what is written with it. -/
def asVariant : Json → Except DecodeError (String × Option Json)
  | .string s => .ok (s, none)
  | .object [(name, v)] => .ok (name, some v)
  | .object _ => .error (.invalidValue .record "map with a single key")
  | v => .error (.invalidType v.shape "string or map")

/-- Nothing, written as null, or as an empty object inside a tagged record. -/
def asNothing (isNested : Bool) : Json → Except DecodeError Unit
  | .null => .ok ()
  | .object [] => if isNested then .ok () else .error (.invalidType .record "unit")
  | v => .error (.invalidType v.shape "unit")

/-- JSON as a dialect, outside or inside a tagged record. -/
def dialect (isNested : Bool) : Dialect Json where
  text := asText
  bool := asBool
  natural := asNatural
  value? := nonNull?
  list := asList
  fields := asFields
  variant := asVariant
  nothing := asNothing isNested

/-! ## Tagged records -/

/-- The variant that a tag names. -/
def tagName (isNested : Bool) (variants : List String) : Json → Except DecodeError String
  | .string s => if variants.contains s then .ok s else .error (.unknownVariant s variants)
  | .number (.integer n) =>
    if isNested ∧ 0 ≤ n then
      match variants[n.toNat]? with
      | some s => .ok s
      | none => .error (.invalidValue (.integer n) "variant index")
    else .error (.invalidType (.integer n) "variant identifier")
  | v => .error (.invalidType v.shape "variant identifier")

/-- The variant of a tagged record, and the record without its tag. -/
def tagged (isNested : Bool) (tag : String) (variants : List String) :
    Json → Except DecodeError (String × Json)
  | .object members =>
    match members.filter (·.1 == tag) with
    | [] => .error (.missingField tag)
    | [(_, t)] =>
      (tagName isNested variants t).map fun name =>
        (name, .object (members.filter (·.1 != tag)))
    | _ => .error (.duplicateField tag)
  | .array [] => .error (.missingField tag)
  | .array (t :: items) =>
    (tagName isNested variants t).map fun name => (name, .array items)
  | v => .error (.invalidType v.shape "a tagged record")

/-- The rest of a tagged record whose variant carries nothing. -/
def noFields : Json → Except DecodeError Unit
  | .array (_ :: items) => .error (.invalidLength (items.length + 1))
  | _ => .ok ()

end Json

end BuildStream
