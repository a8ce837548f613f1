/-
# Reading TOML

A text is a list of lines: blank ones, comments, headers in one or two brackets, and members.
Values may span lines inside brackets and long texts only.  Arrays and inline tables nest at most
80 deep, and a key has fewer than 80 parts.

Every scanner gets fuel for its recursion; the length of the text is enough, since each step takes
at least one character.
-/
import BuildStream.Toml.Document
import BuildStream.Toml.Number

namespace BuildStream

namespace Toml

/-! ## 1. Blanks, comments and keys -/

/-- A text after its blanks. -/
def dropBlanks (cs : List Char) : List Char := cs.dropWhile isBlankChar

/-- The line break or the end of the text after an optional comment. -/
def lineEnd (cs : List Char) : Option (List Char) :=
  let rest :=
    match dropBlanks cs with
    | '#' :: cs => cs.dropWhile isPrintable
    | cs => cs
  match rest with
  | [] => some []
  | rest => lineBreak? rest

/-- A text after blanks, line breaks and comments. -/
def dropFiller : Nat → List Char → List Char
  | 0, cs => cs
  | fuel + 1, cs =>
    match dropBlanks cs with
    | [] => []
    | c :: rest =>
      if c = '#' ∨ c = '\n' ∨ c = '\r' then
        match lineEnd (c :: rest) with
        | some rest => dropFiller fuel rest
        | none => c :: rest
      else c :: rest

/-- Whether a character may stand in a key without quotes. -/
def isBareKeyChar (c : Char) : Bool :=
  c.isAlphanum || c == '-' || c == '_'

/-- One part of a key. -/
def scanKeyPart (cs : List Char) : Option (String × List Char) :=
  match cs with
  | '"' :: _ => scanShortText cs
  | '\'' :: _ => scanShortText cs
  | _ =>
    let bare := cs.takeWhile isBareKeyChar
    if bare.isEmpty then none else some (String.ofList bare, cs.drop bare.length)

/-- How many parts a key may not reach. -/
def maxKeyParts : Nat := 80

/-- The parts of a key between its dots, and what follows the key and its blanks. -/
def scanKey : Nat → List Char → Option (List String × List Char)
  | 0, _ => none
  | fuel + 1, cs =>
    match scanKeyPart (dropBlanks cs) with
    | none => none
    | some (part, rest) =>
      match dropBlanks rest with
      | '.' :: rest => (scanKey fuel rest).map fun r => (part :: r.1, r.2)
      | rest => some ([part], rest)

/-- A key and the value sign after it. -/
def scanKeySign (cs : List Char) : Option (List String × List Char) :=
  match scanKey (maxKeyParts - 1) cs with
  | some (key, '=' :: rest) => some (key, dropBlanks rest)
  | _ => none

/-! ## 2. Values -/

/-- How deep values may nest. -/
def maxNesting : Nat := 80

mutual
/-- A value and what follows it. -/
def scanValue : Nat → Nat → List Char → Option (Toml × List Char)
  | 0, _, _ => none
  | fuel + 1, nesting, cs =>
    match cs with
    | '"' :: _ => (scanText cs).map fun r => (.text r.1, r.2)
    | '\'' :: _ => (scanText cs).map fun r => (.text r.1, r.2)
    | '[' :: rest =>
      if nesting = 0 then none
      else (scanItems fuel (nesting - 1) [] rest).map fun r => (.list r.1, r.2)
    | '\x7b' :: rest =>
      if nesting = 0 then none
      else
        match dropBlanks rest with
        | '\x7d' :: rest => some (.table [], rest)
        | rest =>
          (scanPairs fuel (nesting - 1) [] rest).bind fun r =>
            (inlineTable r.1).map fun table => (table, r.2)
    | 't' :: 'r' :: 'u' :: 'e' :: rest => some (.bool true, rest)
    | 'f' :: 'a' :: 'l' :: 's' :: 'e' :: rest => some (.bool false, rest)
    | cs => scanNumeric cs

/-- The rest of an array after its bracket or a comma, the items read so far in reverse. -/
def scanItems : Nat → Nat → List Toml → List Char → Option (List Toml × List Char)
  | 0, _, _, _ => none
  | fuel + 1, nesting, seen, cs =>
    match dropFiller cs.length cs with
    | ']' :: rest => some (seen.reverse, rest)
    | cs =>
      match scanValue fuel nesting cs with
      | none => none
      | some (v, rest) =>
        match dropFiller rest.length rest with
        | ',' :: rest => scanItems fuel nesting (v :: seen) rest
        | ']' :: rest => some ((v :: seen).reverse, rest)
        | _ => none

/-- The rest of an inline table after its brace or a comma, the members read so far in reverse. -/
def scanPairs : Nat → Nat → List (List String × Toml) → List Char →
    Option (List (List String × Toml) × List Char)
  | 0, _, _, _ => none
  | fuel + 1, nesting, seen, cs =>
    match scanKeySign cs with
    | none => none
    | some (key, rest) =>
      match scanValue fuel nesting rest with
      | none => none
      | some (v, rest) =>
        match dropBlanks rest with
        | ',' :: rest => scanPairs fuel nesting ((key, v) :: seen) rest
        | '\x7d' :: rest => some (((key, v) :: seen).reverse, rest)
        | _ => none
end

/-! ## 3. Statements -/

/-- A header in one or two brackets, or a member, and what follows its line. -/
def scanStatement (cs : List Char) : Option (Statement × List Char) :=
  match cs with
  | '[' :: '[' :: rest =>
    match scanKey (maxKeyParts - 1) rest with
    | some (path, ']' :: ']' :: rest) => (lineEnd rest).map (.listHeader path, ·)
    | _ => none
  | '[' :: rest =>
    match scanKey (maxKeyParts - 1) rest with
    | some (path, ']' :: rest) => (lineEnd rest).map (.header path, ·)
    | _ => none
  | cs => do
    let (key, rest) ← scanKeySign cs
    let (value, rest) ← scanValue (2 * rest.length + 2) maxNesting rest
    let rest ← lineEnd rest
    return (.member key value, rest)

/-- The statements of a text. -/
def scanStatements : Nat → List Char → Option (List Statement)
  | 0, cs => if cs.isEmpty then some [] else none
  | fuel + 1, cs =>
    match dropFiller cs.length cs with
    | [] => some []
    | cs =>
      match scanStatement cs with
      | none => none
      | some (s, rest) => (scanStatements fuel rest).map (s :: ·)

/-- A text after the mark of its byte order. -/
def dropByteOrderMark : List Char → List Char
  | c :: cs => if c.toNat = 0xFEFF then cs else c :: cs
  | [] => []

/-- The value that a text writes, a table. -/
def parse (text : String) : Option Toml :=
  let cs := dropByteOrderMark text.toList
  (scanStatements (cs.length + 1) cs).bind Document.ofStatements

end Toml

end BuildStream
