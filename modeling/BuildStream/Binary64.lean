/-
# Binary floating point of 64 bits

Seconds are shown to one decimal place, and JSON numbers with a fraction are kept, as such
numbers.  Only finite values that are not negative are needed here; a sign is carried beside
them.  A value is a pair `(m, e)` for m · 2^e, and everything is exact arithmetic on natural
numbers followed by ONE rounding, to the nearest value and to the even one of two equally near.
-/
namespace BuildStream

/-! ## 1. Rounding a quotient -/

/-- The integer nearest to `n / d`; of two equally near the even one. -/
def roundHalfEven (n d : Nat) : Nat :=
  let q := n / d
  let r := n % d
  if 2 * r < d then q
  else if 2 * r > d then q + 1
  else if q % 2 = 0 then q else q + 1

/-- The quotient `n / d` as a pair of natural numbers. -/
structure Ratio where
  num : Nat
  den : Nat

namespace Ratio

/-- Multiplication by a power of a base whose exponent may be negative. -/
def scale (x : Ratio) (base : Nat) (exponent : Int) : Ratio :=
  match exponent with
  | .ofNat k => ⟨x.num * base.pow k, x.den⟩
  | .negSucc k => ⟨x.num, x.den * base.pow (k + 1)⟩

/-- The product of two quotients. -/
def mul (x y : Ratio) : Ratio := ⟨x.num * y.num, x.den * y.den⟩

/-- The first quotient divided by the second. -/
def div (x y : Ratio) : Ratio := ⟨x.num * y.den, x.den * y.num⟩

/-- The sum of two quotients. -/
def add (x y : Ratio) : Ratio := ⟨x.num * y.den + y.num * x.den, x.den * y.den⟩

/-- The nearest integer, ties to even. -/
def round (x : Ratio) : Nat := roundHalfEven x.num x.den

/-- The integer part. -/
def floor (x : Ratio) : Nat := x.num / x.den

/-- Whether the first quotient is less than the second. -/
def lt (x y : Ratio) : Bool := x.num * y.den < y.num * x.den

end Ratio

/-! ## 2. The format -/

/-- The value `mantissa · 2 ^ exponent`. -/
structure Binary64 where
  mantissa : Nat
  exponent : Int
deriving DecidableEq, Repr

namespace Binary64

/-- The exponent of the smallest positive value. -/
def leastExponent : Int := -1074

/-- The greatest exponent of a finite value. -/
def greatestExponent : Int := 971

/-- The exact value as a quotient. -/
def toRatio (x : Binary64) : Ratio := (Ratio.mk x.mantissa 1).scale 2 x.exponent

/-- The exponent that leaves 53 binary digits in front of the point, or the least one. -/
def exponentFor (x : Ratio) : Int :=
  let guess : Int := (Nat.log2 x.num : Int) - (Nat.log2 x.den : Int) - 52
  let e := if ((x.scale 2 (-guess)).floor) < Nat.pow 2 52 then guess - 1 else guess
  max e leastExponent

/-- The value nearest to a quotient; none if that is beyond the greatest finite one. -/
def ofRatio (x : Ratio) : Option Binary64 :=
  if x.num = 0 then some ⟨0, leastExponent⟩
  else
    let e := exponentFor x
    let m := (x.scale 2 (-e)).round
    let r : Binary64 := if m = Nat.pow 2 53 then ⟨Nat.pow 2 52, e + 1⟩ else ⟨m, e⟩
    if r.exponent > greatestExponent then none else some r

/-- The value nearest to a natural number. -/
def ofNat (n : Nat) : Option Binary64 := ofRatio ⟨n, 1⟩

/-- Whether the value is zero. -/
def isZero (x : Binary64) : Bool := x.mantissa == 0

/-- The product, rounded. -/
def mul (x y : Binary64) : Option Binary64 := ofRatio (x.toRatio.mul y.toRatio)

/-- The quotient, rounded. -/
def div (x y : Binary64) : Option Binary64 := ofRatio (x.toRatio.div y.toRatio)

/-- The sum, rounded. -/
def add (x y : Binary64) : Option Binary64 := ofRatio (x.toRatio.add y.toRatio)

end Binary64

end BuildStream
