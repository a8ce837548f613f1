/-
# The tokens of a JSON text

A text is first cut into tokens.  The rules are strict: a number has no superfluous zero and no
bare point, a text holds no raw control character, its escapes are the eight letters and `u` with
four hexadecimal digits, and a code point beyond the first plane is written as a pair of
surrogates, neither of which may stand alone.
-/
import BuildStream.Json.Number

namespace BuildStream

/-- A token of a JSON text. -/
inductive JsonToken where
  | openBracket
  | closeBracket
  | openBrace
  | closeBrace
  | comma
  | colon
  | null
  | bool (b : Bool)
  | string (s : String)
  | number (n : JsonNumber)
deriving Repr

namespace JsonToken

/-! ## 1. Texts -/

/-- The value of a hexadecimal digit. -/
def hexValue (c : Char) : Option Nat :=
  if '0' ≤ c ∧ c ≤ '9' then some (c.toNat - '0'.toNat)
  else if 'a' ≤ c ∧ c ≤ 'f' then some (c.toNat - 'a'.toNat + 10)
  else if 'A' ≤ c ∧ c ≤ 'F' then some (c.toNat - 'A'.toNat + 10)
  else none

/-- The number of four hexadecimal digits. -/
def hexQuad (a b c d : Char) : Option Nat := do
  let a ← hexValue a
  let b ← hexValue b
  let c ← hexValue c
  let d ← hexValue d
  return ((a * 16 + b) * 16 + c) * 16 + d

/-- The character that a letter after a backslash stands for. -/
def escaped (c : Char) : Option Char :=
  match c with
  | '"' => some '"'
  | '\\' => some '\\'
  | '/' => some '/'
  | 'b' => some (Char.ofNat 0x08)
  | 'f' => some (Char.ofNat 0x0C)
  | 'n' => some '\n'
  | 'r' => some '\r'
  | 't' => some '\t'
  | _ => none

/-- Whether a number is the first half of a surrogate pair. -/
def isHighSurrogate (n : Nat) : Bool := 0xD800 ≤ n && n ≤ 0xDBFF

/-- Whether a number is the second half of a surrogate pair. -/
def isLowSurrogate (n : Nat) : Bool := 0xDC00 ≤ n && n ≤ 0xDFFF

/-- The rest of a text after its opening quote, and what follows the closing one.  The characters
read so far are kept in reverse. -/
def scanString (seen : List Char) : List Char → Option (String × List Char)
  | [] => none
  | '"' :: rest => some (String.ofList seen.reverse, rest)
  | '\\' :: 'u' :: a :: b :: c :: d :: rest =>
    match hexQuad a b c d with
    | none => none
    | some high =>
      if isHighSurrogate high then
        match rest with
        | '\\' :: 'u' :: a :: b :: c :: d :: rest =>
          match hexQuad a b c d with
          | none => none
          | some low =>
            if isLowSurrogate low then
              scanString
                (Char.ofNat (0x10000 + (high - 0xD800) * 0x400 + (low - 0xDC00)) :: seen) rest
            else none
        | _ => none
      else if isLowSurrogate high then none
      else scanString (Char.ofNat high :: seen) rest
  | '\\' :: c :: rest =>
    match escaped c with
    | none => none
    | some e => scanString (e :: seen) rest
  | c :: rest => if c = '\\' ∨ c.toNat < 0x20 then none else scanString (c :: seen) rest

/-! ## 2. Numbers -/

/-- The value of a decimal digit. -/
def digitValue (c : Char) : Nat := c.toNat - '0'.toNat

/-- The digits at the start of a text, by value, and what follows them. -/
def takeDigits (cs : List Char) : List Nat × List Char :=
  ((cs.takeWhile Char.isDigit).map digitValue, cs.dropWhile Char.isDigit)

/-- The fraction of a number, if one follows. -/
def scanFraction : List Char → Option (Option (List Nat) × List Char)
  | '.' :: cs =>
    match takeDigits cs with
    | ([], _) => none
    | (digits, rest) => some (some digits, rest)
  | cs => some (none, cs)

/-- The exponent of a number, if one follows. -/
def scanExponent : List Char → Option (Option (Bool × List Nat) × List Char)
  | c :: cs =>
    if c = 'e' ∨ c = 'E' then
      let (isNegative, cs) :=
        match cs with
        | '-' :: cs => (true, cs)
        | '+' :: cs => (false, cs)
        | cs => (false, cs)
      match takeDigits cs with
      | ([], _) => none
      | (digits, rest) => some (some (isNegative, digits), rest)
    else some (none, c :: cs)
  | [] => some (none, [])

/-- A number without its sign. -/
def scanMagnitude (negative : Bool) (cs : List Char) : Option (JsonNumber × List Char) := do
  let (whole, rest) := takeDigits cs
  if whole.isEmpty || (whole.head? == some 0 && whole.length > 1) then none
  else
    let (fraction, rest) ← scanFraction rest
    let (exponent, rest) ← scanExponent rest
    let number ← (NumberParts.mk negative whole fraction exponent).toNumber
    return (number, rest)

/-- A number and what follows it. -/
def scanNumber : List Char → Option (JsonNumber × List Char)
  | '-' :: cs => scanMagnitude true cs
  | cs => scanMagnitude false cs

/-! ## 3. All tokens -/

/-- The first token of a text that does not start with white space, and what follows it. -/
def scan : List Char → Option (JsonToken × List Char)
  | '[' :: rest => some (.openBracket, rest)
  | ']' :: rest => some (.closeBracket, rest)
  | '\x7b' :: rest => some (.openBrace, rest)
  | '\x7d' :: rest => some (.closeBrace, rest)
  | ',' :: rest => some (.comma, rest)
  | ':' :: rest => some (.colon, rest)
  | 'n' :: 'u' :: 'l' :: 'l' :: rest => some (.null, rest)
  | 't' :: 'r' :: 'u' :: 'e' :: rest => some (.bool true, rest)
  | 'f' :: 'a' :: 'l' :: 's' :: 'e' :: rest => some (.bool false, rest)
  | '"' :: rest => (scanString [] rest).map fun r => (.string r.1, r.2)
  | cs => (scanNumber cs).map fun r => (.number r.1, r.2)

/-- White space between tokens. -/
def isSpace (c : Char) : Bool := c == ' ' || c == '\n' || c == '\r' || c == '\t'

/-- The tokens of a text, at most as many as the fuel; the tokens read so far are in reverse. -/
def scanAll : Nat → List JsonToken → List Char → Option (List JsonToken)
  | 0, seen, cs => if (cs.dropWhile isSpace).isEmpty then some seen.reverse else none
  | fuel + 1, seen, cs =>
    match cs.dropWhile isSpace with
    | [] => some seen.reverse
    | cs =>
      match scan cs with
      | some (token, rest) => scanAll fuel (token :: seen) rest
      | none => none

/-- The tokens of a text.  Every token takes at least one character, so the length is enough
fuel. -/
def ofText (text : String) : Option (List JsonToken) :=
  scanAll text.length [] text.toList

end JsonToken

end BuildStream
