/-
# Elapsed seconds

Durations are shown in seconds with one decimal place.  The duration first becomes a binary
floating point number of seconds, and that number's EXACT value is rounded to tenths, a tie going
to the even tenth: 250 ms is shown as `0.2`, 650 ms as `0.7` since the nearest binary number lies
above it.
-/
import BuildStream.Binary64

namespace BuildStream

/-- A number of tenths with a point before the last digit. -/
def tenthsText (n : Nat) : String := Nat.repr (n / 10) ++ "." ++ Nat.repr (n % 10)

/-- The value rounded to one decimal place. -/
def Binary64.toTenths (x : Binary64) : String :=
  tenthsText (((Ratio.mk 10 1).mul x.toRatio).round)

/-- A quotient of two natural numbers, each and their quotient rounded to binary. -/
def binaryQuotient (n d : Nat) : Option Binary64 := do
  let x ← Binary64.ofNat n
  let y ← Binary64.ofNat d
  x.div y

/-- Seconds of a signed number of milliseconds.  The sign of a negative duration stays even if
its tenths are zero. -/
def signedSeconds (ms : Int) : String :=
  let magnitude := ((binaryQuotient ms.natAbs 1000).map Binary64.toTenths).getD "inf"
  if ms < 0 then "-" ++ magnitude else magnitude

/-- Seconds of a number of nanoseconds: whole seconds and the rest are converted apart and then
added. -/
def secondsOfNanos (ns : Nat) : String :=
  let value := do
    let whole ← Binary64.ofNat (ns / 1000000000)
    let rest ← binaryQuotient (ns % 1000000000) 1000000000
    whole.add rest
  (value.map Binary64.toTenths).getD "inf"

/-- Seconds of a number of milliseconds, with their unit. -/
def elapsedText (ms : Nat) : String := secondsOfNanos (ms * 1000000) ++ "s"

end BuildStream
