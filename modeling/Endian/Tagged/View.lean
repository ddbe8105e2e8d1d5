import Endian.Tagged.Arith

/-!
# Bytes as tagged integers

A sequence of bytes seen as consecutive tagged integers, and written back. That such a view takes
the bytes in order, as many at a time as an integer has, and exists only where none are left over is
taken for granted: the definitions here say it, they do not derive it from a layout in memory.
-/

namespace Endian.Tagged

variable {o : ByteOrder} {n : Nat}

theorem element_bound {n size i j : Nat} (hi : i < size / n) (hj : j < n) : i * n + j < size := by
  have h : (i + 1) * n ≤ size / n * n := Nat.mul_le_mul_right n hi
  have := Nat.div_mul_le_self size n
  rw [Nat.succ_mul] at h
  omega

/-- The whole integers from the start of the bytes; a rest that is too short is left out. -/
def elements (data : Array UInt8) : List (Tagged o n) :=
  List.ofFn fun i : Fin (data.size / n) =>
    ⟨Vector.ofFn fun j : Fin n =>
      have := element_bound i.isLt j.isLt
      data[i.val * n + j.val]⟩

/-- Bytes that are no whole number of elements. -/
inductive ViewError where
  | slop
deriving DecidableEq, Repr

/-- All the bytes as consecutive integers, which lie one behind another without gaps by assumption. -/
def view (data : Array UInt8) : Except ViewError (List (Tagged o n)) :=
  if data.size % n = 0 then .ok (elements data) else .error .slop

/-- The bytes of consecutive integers. -/
def flatten (ts : List (Tagged o n)) : Array UInt8 := (ts.flatMap fun t => t.bytes.toList).toArray

/-- The integers after one operation on each of them, unless one is a fault. -/
def updateAll (op : WordOp n) (ts : List (Tagged o n)) : Except Fault (List (Tagged o n)) :=
  ts.mapM (update op)

end Endian.Tagged
