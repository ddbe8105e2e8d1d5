import Endian.Failure

/-!
# Alignment

Rounding of a word to a multiple of an alignment, in the word's own arithmetic. Rounding down
multiplies with a check, rounding up wraps around; the alignment zero is a fault in either. Products
and differences are checked as in a build with overflow checks.
-/

namespace Endian

variable {w : Nat}

/-- Quotient of two words. -/
def checkedDiv (a b : BitVec w) : Except Fault (BitVec w) :=
  if b = 0#w then .error .divisionByZero else .ok (a / b)

/-- Product of two words that must fit into the word. -/
def checkedMul (a b : BitVec w) : Except Fault (BitVec w) :=
  if a.umulOverflow b then .error .mulOverflow else .ok (a * b)

/-- Difference of two words that must not fall below zero. -/
def checkedSub (a b : BitVec w) : Except Fault (BitVec w) :=
  if b.toNat ≤ a.toNat then .ok (a - b) else .error .subOverflow

/-- Rounds down to a multiple of `a`. -/
def alignDown (v a : BitVec w) : Except Fault (BitVec w) := do
  checkedMul (← checkedDiv v a) a

/-- Rounds up to a multiple of `a`, around the end of the word if need be. -/
def alignUp (v a : BitVec w) : Except Fault (BitVec w) := do
  let rest ← checkedSub a 1#w
  let q ← checkedDiv (v + rest) a
  return q * a

/-- The distance to the next multiple of `a`. -/
def alignGap (v a : BitVec w) : Except Fault (BitVec w) := do
  return (← alignUp v a) - v

/-- Exactly one bit is set. -/
def hasSingleBit (v : BitVec w) : Bool := v ≠ 0#w && v &&& (v - 1#w) == 0#w

theorem alignDown_zero (v : BitVec w) : alignDown v 0#w = .error .divisionByZero := by
  simp [alignDown, checkedDiv, bind, Except.bind]

end Endian
