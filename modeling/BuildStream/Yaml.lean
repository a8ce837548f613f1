/-
# YAML values

A YAML node as a tree, and how configuration is decoded from it.  What a scalar means is decided
by the reader of the value: any scalar is a text, and only one without quotes can be null, a truth
value or a number.  A scalar that is empty and without quotes also stands for an empty record or
list.

A variant that carries something is written as a local tag before it.
-/
import BuildStream.Decode

namespace BuildStream

/-- A YAML node; tags of the standard kinds keep their full name. -/
inductive Yaml where
  | scalar (tag : Option String) (isPlain : Bool) (text : String)
  | sequence (tag : Option String) (items : List Yaml)
  | mapping (tag : Option String) (pairs : List (Yaml × Yaml))
deriving Repr, Inhabited

namespace Yaml

/-- The empty scalar, which stands where nothing is written. -/
def empty : Yaml := .scalar none true ""

/-- The tag of a node. -/
def tag? : Yaml → Option String
  | .scalar tag _ _ => tag
  | .sequence tag _ => tag
  | .mapping tag _ => tag

/-- The same node without its tag. -/
def untagged : Yaml → Yaml
  | .scalar _ isPlain text => .scalar none isPlain text
  | .sequence _ items => .sequence none items
  | .mapping _ pairs => .mapping none pairs

/-- The name of a local tag. -/
def localTag? (v : Yaml) : Option String :=
  match v.tag?.map String.toList with
  | some ['!'] => some "!"
  | some ('!' :: name) => some (String.ofList name)
  | _ => none

/-- Whether a text without quotes means null. -/
def isNullText (s : String) : Bool := ["null", "Null", "NULL", "~"].contains s

/-- Whether a node is an empty scalar without quotes. -/
def isEmptyScalar : Yaml → Bool
  | .scalar _ isPlain text => isPlain && text.isEmpty
  | _ => false

/-- What a node is, for the error that refuses it. -/
def shape : Yaml → Shape
  | .scalar _ _ text => .text text
  | .sequence _ _ => .list
  | .mapping _ _ => .record

/-! ## 1. Scalars -/

/-- A text. -/
def asText : Yaml → Except DecodeError String
  | .scalar _ _ text => .ok text
  | v => .error (.invalidType v.shape "a string")

/-- The truth values by name. -/
def boolNames : List (String × Bool) :=
  [("true", true), ("True", true), ("TRUE", true), ("false", false), ("False", false),
    ("FALSE", false)]

/-- A truth value. -/
def asBool (v : Yaml) : Except DecodeError Bool :=
  match v with
  | .scalar _ true text =>
    match boolNames.lookup text with
    | some b => .ok b
    | none => .error (.invalidType v.shape "a boolean")
  | _ => .error (.invalidType v.shape "a boolean")

/-- The value of a digit in a base. -/
def digitIn (base : Nat) (c : Char) : Option Nat :=
  let value :=
    if '0' ≤ c ∧ c ≤ '9' then some (c.toNat - '0'.toNat)
    else if 'a' ≤ c ∧ c ≤ 'f' then some (c.toNat - 'a'.toNat + 10)
    else if 'A' ≤ c ∧ c ≤ 'F' then some (c.toNat - 'A'.toNat + 10)
    else none
  value.filter (· < base)

/-- The number of at least one digit in a base. -/
def numberIn (base : Nat) : List Char → Option Nat
  | [] => none
  | cs => cs.foldlM (fun n c => (digitIn base c).map (n * base + ·)) 0

/-- The natural number of a text: decimal without superfluous zeros, or in another base after its
mark, with an optional plus sign. -/
def naturalOf (cs : List Char) : Option Nat :=
  let unsigned :=
    match cs with
    | '+' :: cs => cs
    | cs => cs
  match unsigned with
  | '0' :: 'x' :: digits => numberIn 16 digits
  | '0' :: 'o' :: digits => numberIn 8 digits
  | '0' :: 'b' :: digits => numberIn 2 digits
  | '0' :: _ :: _ => none
  | digits => numberIn 10 digits

/-- A natural number up to a greatest one. -/
def asNatural (greatest : Nat) (v : Yaml) : Except DecodeError Nat :=
  match v with
  | .scalar _ true text =>
    match naturalOf text.toList with
    | some n =>
      if n ≤ greatest then .ok n else .error (.invalidValue v.shape "a number in range")
    | none => .error (.invalidType v.shape "a number")
  | _ => .error (.invalidType v.shape "a number")

/-- A node that is not null. -/
def nonNull? (v : Yaml) : Option Yaml :=
  match v with
  | .scalar tag true text =>
    let mayBeNull :=
      match tag with
      | none => true
      | some tag => tag == "tag:yaml.org,2002:null"
    if mayBeNull && (text.isEmpty || isNullText text) then none else some v
  | v => some v

/-! ## 2. Collections -/

/-- The items of a sequence. -/
def asList (v : Yaml) : Except DecodeError (List Yaml) :=
  match v with
  | .sequence _ items => .ok items
  | v => if v.isEmptyScalar then .ok [] else .error (.invalidType v.shape "a sequence")

/-- Members by the texts of their keys. -/
def namedMembers : List (Yaml × Yaml) → Except DecodeError (List (String × Yaml))
  | [] => .ok []
  | (key, v) :: rest =>
    match asText key with
    | .error e => .error e
    | .ok name =>
      match namedMembers rest with
      | .error e => .error e
      | .ok members => .ok ((name, v) :: members)

/-- The fields of a record, which has to be a mapping. -/
def asFields (names : List String) (v : Yaml) : Except DecodeError (Fields Yaml) :=
  match v with
  | .mapping _ pairs => (namedMembers pairs).bind (Fields.ofMembers names)
  | v => if v.isEmptyScalar then .ok ⟨[], false⟩ else .error (.invalidType v.shape "a record")

/-- The name of a variant, and what is written with it. -/
def asVariant (v : Yaml) : Except DecodeError (String × Option Yaml) :=
  match v.localTag?, v with
  | some name, v => .ok (name, some v.untagged)
  | none, .scalar _ _ text => .ok (text, none)
  | none, v => .error (.invalidType v.shape "a tag")

/-- Nothing, written as null or not at all. -/
def asNothing (v : Yaml) : Except DecodeError Unit :=
  match v with
  | .scalar _ true text =>
    if text.isEmpty || isNullText text then .ok () else .error (.invalidType v.shape "unit")
  | v => .error (.invalidType v.shape "unit")

/-- YAML as a dialect. -/
def dialect : Dialect Yaml where
  text := asText
  bool := asBool
  natural := asNatural
  value? := nonNull?
  list := asList
  fields := asFields
  variant := asVariant
  nothing := asNothing

end Yaml

end BuildStream
