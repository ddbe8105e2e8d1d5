import Endian.Failure

/-!
# Positions

A position in memory or in a buffer has 64 bits. Sums and differences of positions are those of a
build with overflow checks: one that is no position again is a fault. A build without these checks
wraps around instead and is not described here.
-/

namespace Endian

abbrev Position := UInt64

namespace Position

/-- Sum of two positions. -/
def checkedAdd (a b : Position) : Except Fault Position :=
  if a.toNat + b.toNat < UInt64.size then .ok (a + b) else .error .addOverflow

/-- Difference of two positions. -/
def checkedSub (a b : Position) : Except Fault Position :=
  if b.toNat ≤ a.toNat then .ok (a - b) else .error .subOverflow

theorem checkedAdd_of_lt {a b : Position} (h : a.toNat + b.toNat < UInt64.size) :
    checkedAdd a b = .ok (a + b) := by
  rw [checkedAdd, if_pos h]

theorem toNat_add_of_lt {a b : Position} (h : a.toNat + b.toNat < UInt64.size) :
    (a + b).toNat = a.toNat + b.toNat := by
  rw [UInt64.toNat_add, Nat.mod_eq_of_lt h]

end Position

end Endian
