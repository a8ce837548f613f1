/-
# Decoding written values

Configuration is written in three notations and events in one of them.  What a decoder may ask of
a written value is the same everywhere: to be a text, a truth value, a number, a list, a record
with named fields, or one of several named variants.  A `Dialect` answers these questions for one
notation, so every decoder is written once, over any dialect.

The rules for records are those of derived decoding: a field that is not known is passed over, a
known one that comes twice is refused, and one that is missing is refused unless it has a default.
A notation may also write a record as the list of its fields in order.
-/
import BuildStream.Json
import BuildStream.Text.Quoted

namespace BuildStream

/-! ## 1. Errors -/

/-- What was found where something else was wanted. -/
inductive Shape where
  | null
  | bool (b : Bool)
  | integer (n : Int)
  | decimal (d : Decimal)
  | text (s : String)
  | list
  | record
  | unitVariant
deriving Repr

namespace Shape

/-- The words for what was found. -/
def describe : Shape → String
  | null => "null"
  | bool b => "boolean `" ++ (if b then "true" else "false") ++ "`"
  | integer n => "integer `" ++ toString n ++ "`"
  | decimal d => "floating point `" ++ d.text ++ "`"
  | text s => "string " ++ quoted s
  | list => "sequence"
  | record => "map"
  | unitVariant => "unit variant"

end Shape

/-- Why a written value does not decode. -/
inductive DecodeError where
  | invalidType (found : Shape) (wanted : String)
  | invalidValue (found : Shape) (wanted : String)
  | invalidLength (length : Nat)
  | missingField (name : String)
  | duplicateField (name : String)
  | unknownVariant (name : String) (known : List String)
deriving Repr

namespace DecodeError

/-- A list of names that were possible. -/
def oneOf : List String → String
  | [] => "there are no variants"
  | [a] => "expected `" ++ a ++ "`"
  | [a, b] => "expected `" ++ a ++ "` or `" ++ b ++ "`"
  | names => "expected one of " ++ ", ".intercalate (names.map fun n => "`" ++ n ++ "`")

/-- The words of an error. -/
def message : DecodeError → String
  | invalidType found wanted => "invalid type: " ++ found.describe ++ ", expected " ++ wanted
  | invalidValue found wanted => "invalid value: " ++ found.describe ++ ", expected " ++ wanted
  | invalidLength length => "invalid length " ++ Nat.repr length
  | missingField name => "missing field `" ++ name ++ "`"
  | duplicateField name => "duplicate field `" ++ name ++ "`"
  | unknownVariant name known => "unknown variant `" ++ name ++ "`, " ++ oneOf known

end DecodeError

/-! ## 2. Records -/

/-- The known fields of a record that were written. -/
structure Fields (V : Type) where
  found : List (String × V)
  /-- Whether the record was written as a list, where even a field that may be null has its
  place. -/
  isList : Bool

namespace Fields

variable {V α : Type}

/-- The first name that stands for two of the members. -/
def firstDuplicate : List (String × V) → Option String
  | [] => none
  | (n, _) :: rest => if (rest.lookup n).isSome then some n else firstDuplicate rest

/-- The known ones of the members of a record. -/
def ofMembers (names : List String) (members : List (String × V)) :
    Except DecodeError (Fields V) :=
  let known := members.filter fun m => names.contains m.1
  match firstDuplicate known with
  | some n => .error (.duplicateField n)
  | none => .ok ⟨known, false⟩

/-- The fields of a record written as a list. -/
def ofItems (names : List String) (items : List V) : Except DecodeError (Fields V) :=
  if items.length > names.length then .error (.invalidLength items.length)
  else .ok ⟨names.zip items, true⟩

/-- A field that is missing and has no default. -/
def missing (f : Fields V) (name : String) : Except DecodeError α :=
  if f.isList then .error (.invalidLength f.found.length) else .error (.missingField name)

/-- A field that has to be there. -/
def required (f : Fields V) (name : String) (decode : V → Except DecodeError α) :
    Except DecodeError α :=
  match f.found.lookup name with
  | some v => decode v
  | none => f.missing name

/-- A field with a default. -/
def withDefault (f : Fields V) (name : String) (default : α)
    (decode : V → Except DecodeError α) : Except DecodeError α :=
  match f.found.lookup name with
  | some v => decode v
  | none => .ok default

/-- A field that may be left out or null. -/
def optional (f : Fields V) (name : String) (decode : V → Except DecodeError (Option α)) :
    Except DecodeError (Option α) :=
  match f.found.lookup name with
  | some v => decode v
  | none => if f.isList then f.missing name else .ok none

end Fields

/-! ## 3. Dialects -/

/-- What a notation answers about its written values. -/
structure Dialect (V : Type) where
  text : V → Except DecodeError String
  bool : V → Except DecodeError Bool
  /-- A natural number up to a greatest one. -/
  natural : Nat → V → Except DecodeError Nat
  /-- The value, unless it is null. -/
  value? : V → Option V
  list : V → Except DecodeError (List V)
  /-- The fields of a record, given the names that are known. -/
  fields : List String → V → Except DecodeError (Fields V)
  /-- The name of a variant, and what is written with it. -/
  variant : V → Except DecodeError (String × Option V)
  /-- What is written with a variant that carries nothing. -/
  nothing : V → Except DecodeError Unit

namespace Dialect

variable {V α : Type}

/-- A value that may be null. -/
def option (d : Dialect V) (decode : V → Except DecodeError α) (v : V) :
    Except DecodeError (Option α) :=
  match d.value? v with
  | none => .ok none
  | some v => (decode v).map some

/-- Items decoded from the first to the last. -/
def decodeAll (decode : V → Except DecodeError α) : List V → Except DecodeError (List α)
  | [] => .ok []
  | v :: vs =>
    match decode v with
    | .error e => .error e
    | .ok a =>
      match decodeAll decode vs with
      | .error e => .error e
      | .ok as => .ok (a :: as)

/-- A list of values of one kind. -/
def listOf (d : Dialect V) (decode : V → Except DecodeError α) (v : V) :
    Except DecodeError (List α) :=
  (d.list v).bind (decodeAll decode)

/-- One of several variants that carry nothing. -/
def nameOf (d : Dialect V) (variants : List (String × α)) (v : V) : Except DecodeError α :=
  match d.variant v with
  | .error e => .error e
  | .ok (name, written) =>
    match variants.lookup name with
    | none => .error (.unknownVariant name (variants.map (·.1)))
    | some a =>
      match written with
      | none => .ok a
      | some w => (d.nothing w).map fun _ => a

end Dialect

end BuildStream
