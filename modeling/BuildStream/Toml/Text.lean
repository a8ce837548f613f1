/-
# Quoted texts of TOML

Four kinds of quotes.  Between double quotes a backslash starts an escape, between single quotes
every character stands for itself; three quotes open a text of several lines, whose first line
break is dropped and which may hold up to two quotes in a row.  No kind holds control characters
other than the tab and, in the long forms, line breaks.
-/
import BuildStream.Json.Token

namespace BuildStream

namespace Toml

/-- Whether a character may stand in a comment or a text. -/
def isPrintable (c : Char) : Bool := c == '\t' || (0x20 ≤ c.toNat && c.toNat ≠ 0x7F)

/-- Whether a character is a blank within a line. -/
def isBlankChar (c : Char) : Bool := c == ' ' || c == '\t'

/-- A line break at the start of a text, and what follows it. -/
def lineBreak? : List Char → Option (List Char)
  | '\n' :: cs => some cs
  | '\r' :: '\n' :: cs => some cs
  | _ => none

/-- A text after the line break it may start with. -/
def dropLineBreak (cs : List Char) : List Char := (lineBreak? cs).getD cs

/-! ## 1. Escapes -/

/-- The character that a letter after a backslash stands for. -/
def escaped (c : Char) : Option Char :=
  if c = '/' then none else JsonToken.escaped c

/-- The number of hexadecimal digits. -/
def hexNumber : List Char → Option Nat :=
  List.foldlM (fun n c => (JsonToken.hexValue c).map (n * 16 + ·)) 0

/-- The character of a code point given by so many hexadecimal digits. -/
def codePoint (count : Nat) (cs : List Char) : Option Char := do
  let n ← hexNumber (cs.take count)
  if count ≤ cs.length ∧ n.isValidChar then some (Char.ofNat n) else none

/-- An escape after its backslash, and how many characters it takes. -/
def escape : List Char → Option (Char × Nat)
  | 'u' :: cs => (codePoint 4 cs).map (·, 5)
  | 'U' :: cs => (codePoint 8 cs).map (·, 9)
  | c :: _ => (escaped c).map (·, 1)
  | [] => none

/-! ## 2. Texts on one line -/

/-- The rest of a text in double quotes, given fuel for its characters, and what follows it.  The
characters read so far are kept in reverse. -/
def scanBasic : Nat → List Char → List Char → Option (String × List Char)
  | 0, _, _ => none
  | fuel + 1, seen, cs =>
    match cs with
    | '"' :: rest => some (String.ofList seen.reverse, rest)
    | '\\' :: rest =>
      match escape rest with
      | some (c, n) => scanBasic fuel (c :: seen) (rest.drop n)
      | none => none
    | c :: rest => if isPrintable c then scanBasic fuel (c :: seen) rest else none
    | [] => none

/-- The rest of a text in single quotes, and what follows it. -/
def scanLiteral (cs : List Char) : Option (String × List Char) :=
  let body := cs.takeWhile fun c => isPrintable c && c != '\''
  match cs.drop body.length with
  | '\'' :: rest => some (String.ofList body, rest)
  | _ => none

/-! ## 3. Texts of several lines -/

/-- What a run of quotes in a long text means: so many of them belong to the text, and the text
ends or goes on. -/
def closingRun (length : Nat) : Nat × Bool :=
  if length < 3 then (length, false) else (min (length - 3) 2, true)

/-- The text after a backslash at the end of a line: blanks and line breaks are dropped. -/
def afterJoin (cs : List Char) : Option (List Char) :=
  (lineBreak? (cs.dropWhile isBlankChar)).map fun rest =>
    rest.dropWhile fun c => isBlankChar c || c == '\n' || c == '\r'

/-- The rest of a long text in quotes of a kind. -/
def scanLong (quote : Char) : Nat → List Char → List Char → Option (String × List Char)
  | 0, _, _ => none
  | fuel + 1, seen, cs =>
    match lineBreak? cs with
    | some rest => scanLong quote fuel ('\n' :: seen) rest
    | none =>
      match cs with
      | [] => none
      | c :: rest =>
        if c = quote then
          let run := (cs.takeWhile (· == quote)).length
          let (kept, isEnd) := closingRun run
          let seen := List.replicate kept quote ++ seen
          if isEnd then some (String.ofList seen.reverse, cs.drop (kept + 3))
          else scanLong quote fuel seen (cs.drop run)
        else if c = '\\' ∧ quote = '"' then
          match afterJoin rest with
          | some rest => scanLong quote fuel seen rest
          | none =>
            match escape rest with
            | some (c, n) => scanLong quote fuel (c :: seen) (rest.drop n)
            | none => none
        else if isPrintable c then scanLong quote fuel (c :: seen) rest
        else none

/-! ## 4. All kinds -/

/-- A text on one line, with its quotes. -/
def scanShortText : List Char → Option (String × List Char)
  | '"' :: cs => scanBasic (cs.length + 1) [] cs
  | '\'' :: cs => scanLiteral cs
  | _ => none

/-- A text of any kind, with its quotes. -/
def scanText : List Char → Option (String × List Char)
  | '"' :: '"' :: '"' :: cs => scanLong '"' (cs.length + 1) [] (dropLineBreak cs)
  | '\'' :: '\'' :: '\'' :: cs => scanLong '\'' (cs.length + 1) [] (dropLineBreak cs)
  | cs => scanShortText cs

end Toml

end BuildStream
