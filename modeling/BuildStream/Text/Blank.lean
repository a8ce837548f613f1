/-
# Blank text

The characters with the Unicode property `White_Space`, and the texts made of them alone.  A task
path that is blank in this sense is refused, and the reader of time stamps skips such characters
between the parts of a date.
-/
namespace BuildStream

/-- The code points with the property `White_Space`, as closed ranges. -/
def whiteSpaceRanges : List (Nat × Nat) :=
  [(0x09, 0x0D), (0x20, 0x20), (0x85, 0x85), (0xA0, 0xA0), (0x1680, 0x1680), (0x2000, 0x200A),
   (0x2028, 0x2029), (0x202F, 0x202F), (0x205F, 0x205F), (0x3000, 0x3000)]

/-- Whether a character has the property `White_Space`. -/
def isWhiteSpace (c : Char) : Bool :=
  whiteSpaceRanges.any fun r => r.1 ≤ c.toNat && c.toNat ≤ r.2

/-- Whether a text holds nothing but white space. -/
def isBlank (s : String) : Bool := s.toList.all isWhiteSpace

/-- The text after its leading white space. -/
def trimStart (cs : List Char) : List Char := cs.dropWhile isWhiteSpace

end BuildStream
