/-
# Writing JSON

Two layouts: `Json.compact` on one line, and `Json.pretty` with one member a line, two spaces per
level and no line inside an empty array or object.  In a text the quote, the backslash and the
control characters below the space are escaped, everything else stands for itself.
-/
import BuildStream.Json
import BuildStream.Text.Quoted

namespace BuildStream

namespace Json

/-- One character inside a JSON text. -/
def escapeChar (c : Char) : List Char :=
  if c = '"' then ['\\', '"']
  else if c = '\\' then ['\\', '\\']
  else if c.toNat = 0x08 then ['\\', 'b']
  else if c.toNat = 0x0C then ['\\', 'f']
  else if c = '\n' then ['\\', 'n']
  else if c = '\r' then ['\\', 'r']
  else if c = '\t' then ['\\', 't']
  else if c.toNat < 0x20 then
    let digits := hexDigits c.toNat
    ['\\', 'u'] ++ List.replicate (4 - digits.length) '0' ++ digits
  else [c]

/-- A JSON text with its quotes. -/
def stringText (s : String) : String :=
  String.ofList ('"' :: s.toList.flatMap escapeChar ++ ['"'])

/-- A JSON number. -/
def numberText : JsonNumber → String
  | .integer n => toString n
  | .decimal d => d.text

/-! ## 1. On one line -/

mutual
/-- The value on one line, without blanks. -/
def compact : Json → String
  | .null => "null"
  | .bool b => if b then "true" else "false"
  | .number n => numberText n
  | .string s => stringText s
  | .array items => "[" ++ ",".intercalate (compactItems items) ++ "]"
  | .object members => "\x7b" ++ ",".intercalate (compactMembers members) ++ "\x7d"

/-- The items of an array. -/
def compactItems : List Json → List String
  | [] => []
  | v :: vs => v.compact :: compactItems vs

/-- The members of an object. -/
def compactMembers : List (String × Json) → List String
  | [] => []
  | (n, v) :: rest => (stringText n ++ ":" ++ v.compact) :: compactMembers rest
end

/-! ## 2. One member a line -/

/-- The blanks at the start of a line of a level. -/
def indent (level : Nat) : String := String.ofList (List.replicate (2 * level) ' ')

/-- Lines between brackets, the last bracket at the level of the first. -/
def block (opening closing : String) (level : Nat) (lines : List String) : String :=
  if lines.isEmpty then opening ++ closing
  else
    opening ++ "\n" ++ ",\n".intercalate (lines.map (indent (level + 1) ++ ·)) ++ "\n" ++
      indent level ++ closing

mutual
/-- The value at a level, one item or member a line. -/
def prettyAt (level : Nat) : Json → String
  | .null => "null"
  | .bool b => if b then "true" else "false"
  | .number n => numberText n
  | .string s => stringText s
  | .array items => block "[" "]" level (prettyItems (level + 1) items)
  | .object members => block "\x7b" "\x7d" level (prettyMembers (level + 1) members)

/-- The items of an array at a level. -/
def prettyItems (level : Nat) : List Json → List String
  | [] => []
  | v :: vs => v.prettyAt level :: prettyItems level vs

/-- The members of an object at a level. -/
def prettyMembers (level : Nat) : List (String × Json) → List String
  | [] => []
  | (n, v) :: rest => (stringText n ++ ": " ++ v.prettyAt level) :: prettyMembers level rest
end

/-- The value over several lines. -/
def pretty (v : Json) : String := v.prettyAt 0

end Json

end BuildStream
