/-
# Lists without repetition

Targets are kept once each, in the order in which they are first seen.  A list is built up by
`addNew`, which changes nothing if the member is already there.
-/
namespace BuildStream

variable {α : Type} [BEq α]

/-- Adds a member at the end, unless it is already there. -/
def addNew (seen : List α) (a : α) : List α := if seen.contains a then seen else seen ++ [a]

/-- Adds members one after the other. -/
def addAllNew (seen more : List α) : List α := more.foldl addNew seen

/-- The members of a list without repetition, in first-seen order. -/
def distinct (xs : List α) : List α := addAllNew [] xs

end BuildStream
