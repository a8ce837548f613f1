/-
# Time stamps

A moment in universal time: a date, the second of the day and the nanosecond of that second.  A
nanosecond of one thousand million or more lies in a leap second that follows the second.

The length between two moments counts a leap second that the earlier one stands in; it is given in
whole milliseconds, toward zero.
-/
import BuildStream.Calendar

namespace BuildStream

/-- The nanoseconds of a second. -/
def nanosPerSecond : Nat := 1000000000

/-- The seconds of a day. -/
def secondsPerDay : Nat := 86400

/-- A moment in universal time. -/
structure Timestamp where
  date : Date
  second : Nat
  nano : Nat
  second_lt : second < secondsPerDay
  nano_lt : nano < 2 * nanosPerSecond
deriving DecidableEq, Repr

namespace Timestamp

/-- The moment of a date, second and nanosecond. -/
def of? (date : Date) (second nano : Nat) : Option Timestamp :=
  if h : second < secondsPerDay ∧ nano < 2 * nanosPerSecond then
    some ⟨date, second, nano, h.1, h.2⟩
  else none

/-- The first moment of 1970. -/
def epoch : Timestamp :=
  ⟨⟨1970, 1, 1, by decide⟩, 0, 0, by decide, by decide⟩

/-- Whether the moment lies in a leap second. -/
def inLeapSecond (t : Timestamp) : Bool := nanosPerSecond ≤ t.nano

/-- The nanoseconds from one time of day to another, a leap second between them included. -/
def nanosOfDay (start finish : Timestamp) : Int :=
  let seconds : Int := (finish.second : Int) - start.second
  let leap : Int :=
    if start.second < finish.second ∧ start.inLeapSecond then 1
    else if finish.second < start.second ∧ finish.inLeapSecond then -1
    else 0
  (seconds + leap) * nanosPerSecond + ((finish.nano : Int) - start.nano)

/-- The nanoseconds from one moment to another. -/
def nanosBetween (start finish : Timestamp) : Int :=
  (finish.date.number - start.date.number) * (secondsPerDay * nanosPerSecond : Nat) +
    nanosOfDay start finish

/-- The milliseconds from one moment to another, toward zero. -/
def millisBetween (start finish : Timestamp) : Int :=
  (nanosBetween start finish).tdiv 1000000

/-- The moment some milliseconds later. -/
def plusMillis (t : Timestamp) (millis : Nat) : Timestamp :=
  let total := t.second * nanosPerSecond + t.nano + millis * 1000000
  let seconds := total / nanosPerSecond
  ⟨t.date.after (seconds / secondsPerDay), seconds % secondsPerDay, total % nanosPerSecond,
    Nat.mod_lt _ (by decide),
    Nat.lt_of_lt_of_le (Nat.mod_lt _ (by decide)) (by decide)⟩

end Timestamp

end BuildStream
