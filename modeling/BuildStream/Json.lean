/-
# JSON values

A JSON value as a tree.  Members of an object keep the order in which they were written and may
repeat a name; what a repetition means is for the reader of the value to say.  `canonical` gives
the meaning used for values that are passed on untouched: members sorted by name, the last of
several with one name.

A number is an integer when it was written without fraction or exponent and fits a signed or an
unsigned word of 64 bits; any other number is a decimal.
-/
import BuildStream.Binary64.Shortest

namespace BuildStream

/-- A JSON number. -/
inductive JsonNumber where
  | integer (n : Int)
  | decimal (d : Decimal)
deriving DecidableEq, Repr

/-- A JSON value. -/
inductive Json where
  | null
  | bool (b : Bool)
  | number (n : JsonNumber)
  | string (s : String)
  | array (items : List Json)
  | object (members : List (String × Json))
deriving Repr, BEq, Inhabited

namespace Json

/-- A natural number as a value. -/
def nat (n : Nat) : Json := .number (.integer n)

/-- A list of texts as a value. -/
def strings (xs : List String) : Json := .array (xs.map .string)

/-- A value or null. -/
def ofOption {α : Type} (f : α → Json) : Option α → Json
  | some a => f a
  | none => .null

/-- The first member of a name. -/
def get? (name : String) : Json → Option Json
  | .object members => members.lookup name
  | _ => none

/-! ## Canonical members -/

/-- Puts a member into sorted members, in place of one with its name. -/
def insertMember (name : String) (value : Json) : List (String × Json) → List (String × Json)
  | [] => [(name, value)]
  | (n, v) :: rest =>
    if name < n then (name, value) :: (n, v) :: rest
    else if name = n then (name, value) :: rest
    else (n, v) :: insertMember name value rest

mutual
/-- The value with the members of every object sorted by name, the last of a name kept. -/
def canonical : Json → Json
  | .array items => .array (canonicalItems items)
  | .object members => .object (canonicalMembers [] members)
  | v => v

/-- The canonical forms of the items of an array. -/
def canonicalItems : List Json → List Json
  | [] => []
  | v :: vs => v.canonical :: canonicalItems vs

/-- Adds members one after the other to sorted ones. -/
def canonicalMembers (sorted : List (String × Json)) : List (String × Json) → List (String × Json)
  | [] => sorted
  | (n, v) :: rest => canonicalMembers (insertMember n v.canonical sorted) rest
end

/-! ## Nesting -/

mutual
/-- How deeply arrays and objects are nested, one more than the members of a leaf. -/
def depth : Json → Nat
  | .array items => depthOfItems items + 1
  | .object members => depthOfMembers members + 1
  | _ => 1

/-- The greatest depth of the items. -/
def depthOfItems : List Json → Nat
  | [] => 0
  | v :: vs => max v.depth (depthOfItems vs)

/-- The greatest depth of the members' values. -/
def depthOfMembers : List (String × Json) → Nat
  | [] => 0
  | (_, v) :: rest => max v.depth (depthOfMembers rest)
end

end Json

end BuildStream
