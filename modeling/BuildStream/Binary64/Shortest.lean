/-
# The shortest decimal that reads back

A binary value is written with the fewest decimal digits whose nearest binary value is that value
again; of several such texts the one closest to it is taken.  For 1, 2, ... 17 digits the two
neighbours of the value on that decimal grid are tried, so the first hit is the shortest.

The text is positional between `0.00001` and sixteen digits before the point, with `.0` after a
whole number, and has an exponent outside that range.
-/
import BuildStream.Binary64

namespace BuildStream

/-- A decimal number: the digits of a natural number with the point moved by an exponent. -/
structure Decimal where
  negative : Bool
  digits : Nat
  exponent : Int
deriving DecidableEq, Repr

namespace Binary64

/-- How many decimal digits stand before the point of a positive quotient; zero or less if the
quotient is less than one. -/
def decimalWidth (x : Ratio) : Int :=
  let reaches (k : Int) : Bool := !(x.lt ((Ratio.mk 1 1).scale 10 k))
  let guess : Int := ((Nat.repr x.num).length : Int) - ((Nat.repr x.den).length : Int)
  if reaches guess then guess + 1 else guess

/-- Whether the decimal `c · 10 ^ k` has this value as its nearest one. -/
def readsBack (x : Binary64) (c : Nat) (k : Int) : Bool :=
  ofRatio ((Ratio.mk c 1).scale 10 k) == some x

/-- A decimal of the value on the grid of step `10 ^ k`: the neighbour that reads back, the
nearer one if both do. -/
def onGrid (x : Binary64) (k : Int) : Option (Nat × Int) :=
  let scaled := x.toRatio.scale 10 (-k)
  let low := scaled.floor
  match readsBack x low k, readsBack x (low + 1) k with
  | true, true => some (scaled.round, k)
  | true, false => some (low, k)
  | false, true => some (low + 1, k)
  | false, false => none

/-- The first grid with a hit, from coarse to fine. -/
def firstHit (x : Binary64) : List Int → Option (Nat × Int)
  | [] => none
  | k :: ks =>
    match onGrid x k with
    | some d => some d
    | none => firstHit x ks

/-- Moves trailing zeros of the digits into the exponent. -/
def trimZeros : Nat → Nat → Int → Nat × Int
  | 0, c, k => (c, k)
  | fuel + 1, c, k => if c ≠ 0 ∧ c % 10 = 0 then trimZeros fuel (c / 10) (k + 1) else (c, k)

/-- The fewest digits that read back as the value. -/
def shortest (x : Binary64) : Nat × Int :=
  if x.isZero then (0, 0)
  else
    let width := decimalWidth x.toRatio
    match firstHit x ((List.range 17).map fun (n : Nat) => width - (n + 1 : Nat)) with
    | some (c, k) => trimZeros 20 c k
    | none => (0, 0)

end Binary64

namespace Decimal

/-- The shortest decimal of a binary value with a sign. -/
def ofBinary (negative : Bool) (x : Binary64) : Decimal :=
  let (digits, exponent) := x.shortest
  ⟨negative, digits, exponent⟩

/-- Zeros to fill up a number. -/
def zeros (n : Nat) : String := String.ofList (List.replicate n '0')

/-- The text without its sign. -/
def magnitudeText (x : Decimal) : String :=
  let digits := Nat.repr x.digits
  let length : Int := digits.length
  let point := length + x.exponent
  if x.digits = 0 then "0.0"
  else if 0 ≤ x.exponent ∧ point ≤ 16 then digits ++ zeros x.exponent.toNat ++ ".0"
  else if 0 < point ∧ point ≤ 16 then
    let before := digits.toList.take point.toNat
    let after := digits.toList.drop point.toNat
    String.ofList before ++ "." ++ String.ofList after
  else if -5 < point ∧ point ≤ 0 then "0." ++ zeros (-point).toNat ++ digits
  else
    let mark := "e" ++ toString (point - 1)
    match digits.toList with
    | [d] => String.ofList [d] ++ mark
    | d :: ds => String.ofList [d] ++ "." ++ String.ofList ds ++ mark
    | [] => "0.0"

/-- The text of a decimal. -/
def text (x : Decimal) : String :=
  if x.negative then "-" ++ x.magnitudeText else x.magnitudeText

end Decimal

end BuildStream
