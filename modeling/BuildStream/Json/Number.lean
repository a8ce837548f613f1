/-
# Reading JSON numbers

The digits of a number are gathered into a significand that fits an unsigned word of 64 bits and a
power of ten: digits of the whole part beyond the word only raise the power, digits of the
fraction beyond it are dropped.  A number without fraction and exponent that fits its word is an
integer.  Any other number is the significand as a binary number, multiplied or divided ONCE by a
power of ten; a value beyond the greatest finite one is refused.
-/
import BuildStream.Json

namespace BuildStream

/-- The parts of a number as written, digits by value. -/
structure NumberParts where
  negative : Bool
  whole : List Nat
  fraction : Option (List Nat)
  exponent : Option (Bool × List Nat)

namespace NumberParts

/-- The greatest unsigned word of 64 bits. -/
def wordMax : Nat := UInt64.size - 1

/-- The greatest exponent that is read as a number. -/
def exponentMax : Nat := Nat.pow 2 31 - 1

/-- Digits gathered so far, and the power of ten they still lack. -/
structure Significand where
  value : Nat
  power : Int
  isFull : Bool

/-- Adds a digit of the whole part. -/
def Significand.whole (s : Significand) (digit : Nat) : Significand :=
  if s.isFull || s.value * 10 + digit > wordMax then { s with power := s.power + 1, isFull := true }
  else { s with value := s.value * 10 + digit }

/-- Adds a digit of the fraction. -/
def Significand.fraction (s : Significand) (digit : Nat) : Significand :=
  if s.isFull then s
  else if s.value * 10 + digit > wordMax then { s with isFull := true }
  else { s with value := s.value * 10 + digit, power := s.power - 1 }

/-- The significand of the whole part alone. -/
def wholeSignificand (p : NumberParts) : Significand :=
  p.whole.foldl Significand.whole ⟨0, 0, false⟩

/-- The significand of the whole part and the fraction. -/
def significand (p : NumberParts) : Significand :=
  (p.fraction.getD []).foldl Significand.fraction { p.wholeSignificand with isFull := false }

/-- The number that digits write. -/
def digitsValue (digits : List Nat) : Nat := digits.foldl (fun n d => n * 10 + d) 0

/-- A binary number times a power of ten, by steps of at most 308. -/
def scaled : Nat → Binary64 → Int → Option Binary64
  | 0, _, _ => some ⟨0, Binary64.leastExponent⟩
  | fuel + 1, x, power =>
    if power.natAbs ≤ 308 then do
      let factor ← Binary64.ofNat (Nat.pow 10 power.natAbs)
      if power ≥ 0 then x.mul factor else x.div factor
    else if x.isZero then some x
    else if power ≥ 0 then none
    else do
      let factor ← Binary64.ofNat (Nat.pow 10 308)
      scaled fuel (← x.div factor) (power + 308)

/-- The number as a binary one; none if it is too great. -/
def binary (p : NumberParts) : Option Binary64 :=
  let s := p.significand
  let start := Binary64.ofNat s.value
  match p.exponent with
  | none => start.bind (scaled 4 · s.power)
  | some (isNegative, digits) =>
    let e := digitsValue digits
    if e > exponentMax then
      if s.value ≠ 0 ∧ !isNegative then none else some ⟨0, Binary64.leastExponent⟩
    else start.bind (scaled 4 · (if isNegative then s.power - e else s.power + e))

/-- The number as an integer, if it is written as one and fits. -/
def integer (p : NumberParts) : Option Int :=
  let s := p.wholeSignificand
  if p.fraction.isSome || p.exponent.isSome || s.isFull then none
  else if !p.negative then some s.value
  else if 0 < s.value ∧ s.value ≤ Nat.pow 2 63 then some (-(s.value : Int))
  else none

/-- The value of a number. -/
def toNumber (p : NumberParts) : Option JsonNumber :=
  match p.integer with
  | some n => some (.integer n)
  | none => p.binary.map fun x => .decimal (Decimal.ofBinary p.negative x)

end NumberParts

end BuildStream
