/-
# The stamps of one generator

A generator counts in 64 bits.  The stamps it hands out one after the other are `Generator.nth`,
and as long as there are no more than `2 ^ 64` of them they are all different (`nodup_firstStamps`):
the counter comes back to where it began only after that.
-/
import BuildStream.Identity
import Mathlib.Data.List.Nodup

namespace BuildStream

namespace Generator

/-- The stamp that a generator hands out after so many others. -/
def nth (g : Generator) (i : Nat) : Stamp := ⟨g.scope, g.next + UInt64.ofNat i⟩

/-- The generator after it handed out so many stamps. -/
def after (g : Generator) (n : Nat) : Generator := ⟨g.scope, g.next + UInt64.ofNat n⟩

/-- The first so many stamps. -/
def firstStamps (g : Generator) (n : Nat) : List Stamp := (List.range n).map g.nth

/-- A counter goes on from where it stands... -/
theorem counter_succ (first : UInt64) (n : Nat) :
    first + UInt64.ofNat (n + 1) = first + UInt64.ofNat n + 1 := by
  rw [UInt64.ofNat_add, ← UInt64.add_assoc]
  rfl

/-- ...which is as far as the counter after the first step has come. -/
theorem counter_succ' (first : UInt64) (n : Nat) :
    first + UInt64.ofNat (n + 1) = first + 1 + UInt64.ofNat n := by
  rw [counter_succ, UInt64.add_assoc, UInt64.add_comm (UInt64.ofNat n), ← UInt64.add_assoc]

@[simp] theorem after_zero (g : Generator) : g.after 0 = g := by simp [after]

theorem firstStamps_succ (g : Generator) (n : Nat) :
    g.firstStamps (n + 1) = g.firstStamps n ++ [g.nth n] := by
  simp [firstStamps, List.range_succ]

/-- The first stamp, and then those of the generator after it. -/
theorem firstStamps_cons (g : Generator) (n : Nat) :
    g.firstStamps (n + 1) = g.allocate.1 :: g.allocate.2.firstStamps n := by
  rw [firstStamps, List.range_succ_eq_map, List.map_cons, List.map_map]
  refine congrArg₂ List.cons (by simp [nth, allocate]) (List.map_congr_left fun i _ => ?_)
  exact congrArg (Stamp.mk g.scope) (counter_succ' g.next i)

theorem allocate_after (g : Generator) (n : Nat) :
    (g.after n).allocate = (g.nth n, g.after (n + 1)) := by
  simp only [allocate, after, nth, counter_succ]

/-- A counter takes `2 ^ 64` different values before it comes back. -/
theorem counter_inj {first : UInt64} {i j : Nat} (hi : i < UInt64.size) (hj : j < UInt64.size)
    (h : first + UInt64.ofNat i = first + UInt64.ofNat j) : i = j := by
  have ho : UInt64.ofNat i = UInt64.ofNat j := (UInt64.add_right_inj _).mp h
  have hn := congrArg UInt64.toNat ho
  rwa [UInt64.toNat_ofNat_of_lt' hi, UInt64.toNat_ofNat_of_lt' hj] at hn

theorem nth_inj {g : Generator} {i j : Nat} (hi : i < UInt64.size) (hj : j < UInt64.size)
    (h : g.nth i = g.nth j) : i = j :=
  counter_inj hi hj (Stamp.mk.inj h).2

@[simp] theorem length_firstStamps (g : Generator) (n : Nat) : (g.firstStamps n).length = n := by
  simp [firstStamps]

/-- **No stamp comes twice** among the first `2 ^ 64`. -/
theorem nodup_firstStamps {g : Generator} {n : Nat} (h : n ≤ UInt64.size) :
    (g.firstStamps n).Nodup := by
  refine List.Nodup.map_on (fun i hi j hj hij => ?_) List.nodup_range
  have hi := List.mem_range.mp hi
  have hj := List.mem_range.mp hj
  exact nth_inj (by omega) (by omega) hij

end Generator

end BuildStream
