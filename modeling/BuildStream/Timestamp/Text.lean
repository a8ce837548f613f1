/-
# Time stamps as text

Written, a moment is `2024-01-01T00:00:00Z` with three, six or nine digits of a fraction, the
fewest that lose nothing; a year that does not have four digits has a sign.

The reader is more generous than the writer.  Numbers may have fewer digits than usual and white
space before them, the date and the time may be parted by a space, a fraction may have any number
of digits of which nine count, and the offset from universal time may be `Z`, `UTC` or a signed
hour and minute.  A second `60` is a leap second.
-/
import BuildStream.Timestamp
import BuildStream.Text.Blank

namespace BuildStream

namespace Timestamp

/-! ## 1. Writing -/

/-- A number with zeros in front up to a width. -/
def padded (width n : Nat) : String :=
  let digits := Nat.repr n
  String.ofList (List.replicate (width - digits.length) '0') ++ digits

/-- A year. -/
def yearText (year : Int) : String :=
  if 0 ≤ year ∧ year ≤ 9999 then padded 4 year.toNat
  else if 0 ≤ year then "+" ++ padded 4 year.toNat
  else "-" ++ padded 4 (-year).toNat

/-- The fraction of a second, its point included. -/
def fractionText (nano : Nat) : String :=
  if nano = 0 then ""
  else if nano % 1000000 = 0 then "." ++ padded 3 (nano / 1000000)
  else if nano % 1000 = 0 then "." ++ padded 6 (nano / 1000)
  else "." ++ padded 9 nano

/-- A moment as text. -/
def text (t : Timestamp) : String :=
  let leap := if t.inLeapSecond then 1 else 0
  yearText t.date.year ++ "-" ++ padded 2 t.date.month ++ "-" ++ padded 2 t.date.day ++ "T" ++
    padded 2 (t.second / 3600) ++ ":" ++ padded 2 (t.second / 60 % 60) ++ ":" ++
    padded 2 (t.second % 60 + leap) ++ fractionText (t.nano - leap * nanosPerSecond) ++ "Z"

/-! ## 2. Reading -/

/-- The value of decimal digits. -/
def valueOf (digits : List Char) : Nat :=
  digits.foldl (fun n c => n * 10 + (c.toNat - '0'.toNat)) 0

/-- A number of at least one digit and at most so many, and what follows it. -/
def scanNumber (most : Nat) (cs : List Char) : Option (Nat × List Char) :=
  let digits := (cs.take most).takeWhile Char.isDigit
  if digits.isEmpty then none else some (valueOf digits, cs.drop digits.length)

/-- A number after white space. -/
def scanField (most : Nat) (cs : List Char) : Option (Nat × List Char) :=
  scanNumber most (trimStart cs)

/-- A year, with a sign and any number of digits or without one and at most four. -/
def scanYear (cs : List Char) : Option (Int × List Char) :=
  match trimStart cs with
  | '-' :: cs => (scanNumber cs.length cs).map fun r => (-(r.1 : Int), r.2)
  | '+' :: cs => (scanNumber cs.length cs).map fun r => ((r.1 : Int), r.2)
  | cs => (scanNumber 4 cs).map fun r => ((r.1 : Int), r.2)

/-- A mark after white space. -/
def scanMark (mark : Char) (cs : List Char) : Option (List Char) :=
  match trimStart cs with
  | c :: cs => if c = mark then some cs else none
  | [] => none

/-- A fraction of a second in nanoseconds, if one follows; digits after the ninth are passed
over. -/
def scanFraction : List Char → Option (Nat × List Char)
  | '.' :: cs =>
    let digits := cs.takeWhile Char.isDigit
    let used := digits.take 9
    if used.isEmpty then none
    else some (valueOf used * Nat.pow 10 (9 - used.length), cs.drop digits.length)
  | cs => some (0, cs)

/-- Two digits. -/
def scanPair : List Char → Option (Nat × List Char)
  | a :: b :: cs => if a.isDigit && b.isDigit then some (valueOf [a, b], cs) else none
  | _ => none

/-- An hour and a minute after a sign, in seconds. -/
def scanClock (cs : List Char) : Option (Nat × List Char) := do
  let (hours, cs) ← scanPair cs
  let cs := cs.dropWhile fun c => c = ':' || isWhiteSpace c
  let (minutes, cs) ← scanPair cs
  if minutes < 60 ∧ hours < 24 then some (hours * 3600 + minutes * 60, cs) else none

/-- The offset from universal time in seconds, east of it positive. -/
def scanOffset (cs : List Char) : Option (Int × List Char) :=
  match cs with
  | 'Z' :: cs => some (0, cs)
  | 'z' :: cs => some (0, cs)
  | '+' :: cs => (scanClock cs).map fun r => ((r.1 : Int), r.2)
  | '-' :: cs => (scanClock cs).map fun r => (-(r.1 : Int), r.2)
  | '−' :: cs => (scanClock cs).map fun r => (-(r.1 : Int), r.2)
  | u :: t :: c :: cs =>
    if [u.toUpper, t.toUpper, c.toUpper] = ['U', 'T', 'C'] then some (0, cs) else none
  | _ => none

/-- The moment of a date and a second of the day that may lie one day off. -/
def ofShifted (date : Date) (second : Int) (nano : Nat) : Option Timestamp :=
  if second < 0 then
    date.previous?.bind fun d => of? d (second + secondsPerDay).toNat nano
  else if second < secondsPerDay then of? date second.toNat nano
  else date.next?.bind fun d => of? d (second - secondsPerDay).toNat nano

/-- The moment that a text writes. -/
def read (s : String) : Option Timestamp := do
  let (year, cs) ← scanYear s.toList
  let cs ← scanMark '-' cs
  let (month, cs) ← scanField 2 cs
  let cs ← scanMark '-' cs
  let (day, cs) ← scanField 2 cs
  let date ← Date.of? year month day
  let cs ←
    match cs with
    | c :: cs => if c = 'T' ∨ c = 't' ∨ c = ' ' then some cs else none
    | [] => none
  let (hour, cs) ← scanField 2 cs
  let cs ← scanMark ':' cs
  let (minute, cs) ← scanField 2 cs
  let cs ← scanMark ':' cs
  let (second, cs) ← scanField 2 cs
  let (nano, cs) ← scanFraction cs
  let (offset, cs) ← scanOffset (trimStart cs)
  if hour < 24 ∧ minute < 60 ∧ second ≤ 60 ∧ (trimStart cs).isEmpty then
    let leap := if second = 60 then 1 else 0
    ofShifted date ((hour * 3600 + minute * 60 + second - leap : Nat) - offset)
      (nano + leap * nanosPerSecond)
  else none

end Timestamp

end BuildStream
