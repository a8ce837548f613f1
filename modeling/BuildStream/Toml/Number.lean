/-
# Numbers and moments of TOML

Whole numbers are decimal, or hexadecimal, octal or binary after a mark, and fit a signed word of
64 bits; a single underscore may stand between two digits.  A fraction or an exponent makes a
float.  Moments are a date, a time of day, or both with or without an offset.

Each scanner returns what follows; where several apply the caller takes moments before floats and
floats before whole numbers, since each of these starts like the next.
-/
import BuildStream.Toml
import BuildStream.Toml.Text
import BuildStream.Calendar

namespace BuildStream

namespace Toml

/-! ## 1. Digits -/

/-- The digits of a class at the start of a text, single underscores between them left out, and
what follows them; an underscore that no digit follows is an error. -/
def scanDigits (isDigit : Char → Bool) : List Char → Option (List Char × List Char)
  | '_' :: _ => none
  | cs => go cs
where
  /-- Goes on after a digit. -/
  go : List Char → Option (List Char × List Char)
    | [] => some ([], [])
    | '_' :: c :: cs =>
      if isDigit c then (go cs).map fun r => (c :: r.1, r.2) else none
    | c :: cs =>
      if isDigit c then (go cs).map fun r => (c :: r.1, r.2)
      else if c = '_' then none
      else some ([], c :: cs)

/-- The value of digits in a base. -/
def digitsNumber (base : Nat) (digits : List Char) : Nat :=
  digits.foldl (fun n c => n * base + (JsonToken.hexValue c).getD 0) 0

/-- A sign, and whether it is negative. -/
def scanSign : List Char → Bool × List Char
  | '-' :: cs => (true, cs)
  | '+' :: cs => (false, cs)
  | cs => (false, cs)

/-- The digits of a decimal number: a single zero, or digits that do not start with one. -/
def scanDecimalDigits : List Char → Option (List Char × List Char)
  | '0' :: cs => some (['0'], cs)
  | cs =>
    match scanDigits Char.isDigit cs with
    | some ([], _) => none
    | r => r

/-! ## 2. Whole numbers -/

/-- The least whole number. -/
def leastInteger : Int := -Int.pow 2 63

/-- The greatest whole number. -/
def greatestInteger : Int := Int.pow 2 63 - 1

/-- A number that fits. -/
def fitting (n : Int) (rest : List Char) : Option (Toml × List Char) :=
  if leastInteger ≤ n ∧ n ≤ greatestInteger then some (.integer n, rest) else none

/-- Digits of a base after its mark. -/
def scanBased (base : Nat) (cs : List Char) : Option (Toml × List Char) :=
  match scanDigits (fun c => ((JsonToken.hexValue c).getD base) < base) cs with
  | some (d :: ds, rest) => fitting (digitsNumber base (d :: ds)) rest
  | _ => none

/-- A whole number. -/
def scanInteger : List Char → Option (Toml × List Char)
  | '0' :: 'x' :: cs => scanBased 16 cs
  | '0' :: 'o' :: cs => scanBased 8 cs
  | '0' :: 'b' :: cs => scanBased 2 cs
  | cs =>
    let (isNegative, digits) := scanSign cs
    (scanDecimalDigits digits).bind fun (ds, rest) =>
      let n : Int := digitsNumber 10 ds
      fitting (if isNegative then -n else n) rest

/-! ## 3. Floats -/

/-- Digits that may start with a zero, at least one. -/
def scanFreeDigits (cs : List Char) : Option (List Char × List Char) :=
  match scanDigits Char.isDigit cs with
  | some ([], _) => none
  | r => r

/-- An exponent, if one follows. -/
def scanExponent : List Char → Option (Option (Bool × List Nat) × List Char)
  | c :: cs =>
    if c = 'e' ∨ c = 'E' then
      let (isNegative, cs) := scanSign cs
      (scanFreeDigits cs).map fun (ds, rest) =>
        (some (isNegative, ds.map JsonToken.digitValue), rest)
    else some (none, c :: cs)
  | [] => some (none, [])

/-- A fraction, if one follows. -/
def scanFraction : List Char → Option (Option (List Nat) × List Char)
  | '.' :: cs =>
    (scanFreeDigits cs).map fun (ds, rest) => (some (ds.map JsonToken.digitValue), rest)
  | cs => some (none, cs)

/-- A number with a fraction, an exponent or both, which has to be finite. -/
def scanFloat (cs : List Char) : Option (Toml × List Char) := do
  let (negative, start) := scanSign cs
  let (whole, rest) ← scanDecimalDigits start
  let (fraction, rest) ← scanFraction rest
  let (exponent, rest) ← scanExponent rest
  let parts := NumberParts.mk negative (whole.map JsonToken.digitValue) fraction exponent
  if fraction.isNone && exponent.isNone then none
  else
    let _ ← parts.binary
    return (.float (String.ofList (cs.take (cs.length - rest.length))), rest)

/-- The names of the floats that are no numbers, with an optional sign. -/
def scanSpecial (cs : List Char) : Option (Toml × List Char) :=
  match (scanSign cs).2 with
  | 'i' :: 'n' :: 'f' :: rest => some (.float "inf", rest)
  | 'n' :: 'a' :: 'n' :: rest => some (.float "nan", rest)
  | _ => none

/-! ## 4. Moments -/

/-- A number of exactly so many digits, and what follows it. -/
def scanFixed (count : Nat) (cs : List Char) : Option (Nat × List Char) :=
  let digits := cs.take count
  if digits.length = count ∧ digits.all Char.isDigit then
    some (digitsNumber 10 digits, cs.drop count)
  else none

/-- A mark, and what follows it. -/
def scanMark (mark : Char) : List Char → Option (List Char)
  | c :: cs => if c = mark then some cs else none
  | [] => none

/-- A date that exists. -/
def scanDate (cs : List Char) : Option (List Char) := do
  let (year, cs) ← scanFixed 4 cs
  let cs ← scanMark '-' cs
  let (month, cs) ← scanFixed 2 cs
  let cs ← scanMark '-' cs
  let (day, cs) ← scanFixed 2 cs
  if isDate year month day then some cs else none

/-- A fraction of a second, if one follows. -/
def dropSecondFraction : List Char → Option (List Char)
  | '.' :: c :: cs => if c.isDigit then some (cs.dropWhile Char.isDigit) else none
  | '.' :: [] => none
  | cs => some cs

/-- A time of day; a second `60` is a leap second. -/
def scanTime (cs : List Char) : Option (List Char) := do
  let (hour, cs) ← scanFixed 2 cs
  let cs ← scanMark ':' cs
  let (minute, cs) ← scanFixed 2 cs
  let cs ← scanMark ':' cs
  let (second, cs) ← scanFixed 2 cs
  if hour < 24 ∧ minute < 60 ∧ second ≤ 60 then dropSecondFraction cs else none

/-- An hour and a minute of an offset. -/
def scanOffsetClock (cs : List Char) : Option (List Char) := do
  let (hour, cs) ← scanFixed 2 cs
  let cs ← scanMark ':' cs
  let (minute, cs) ← scanFixed 2 cs
  if hour < 24 ∧ minute < 60 then some cs else none

/-- An offset from universal time, if one follows. -/
def dropOffset : List Char → Option (List Char)
  | 'Z' :: cs => some cs
  | 'z' :: cs => some cs
  | '+' :: cs => scanOffsetClock cs
  | '-' :: cs => scanOffsetClock cs
  | cs => some cs

/-- What follows a date and the time and offset that may come with it. -/
def dropTimeOfDate : List Char → Option (List Char)
  | c :: cs =>
    if c = 'T' ∨ c = 't' then (scanTime cs).bind dropOffset
    else if c = ' ' then
      match scanTime cs with
      | some cs => dropOffset cs
      | none => some (c :: cs)
    else some (c :: cs)
  | [] => some []

/-- A moment. -/
def scanMoment (cs : List Char) : Option (Toml × List Char) :=
  let rest :=
    match scanDate cs with
    | some cs => dropTimeOfDate cs
    | none => scanTime cs
  rest.map fun rest => (.moment (String.ofList (cs.take (cs.length - rest.length))), rest)

/-- A number or a moment. -/
def scanNumeric (cs : List Char) : Option (Toml × List Char) :=
  scanMoment cs <|> scanFloat cs <|> scanSpecial cs <|> scanInteger cs

end Toml

end BuildStream
