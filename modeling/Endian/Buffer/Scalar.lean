import Endian.Word.Basic

/-!
# Scalars

The integer types that are transferred between buffers and host words. A signed type has the bytes
of the unsigned type of its size.
-/

namespace Endian

inductive Scalar where
  | uint16
  | int16
  | uint32
  | int32
  | uint64
  | int64
deriving DecidableEq, Repr

namespace Scalar

/-- Bytes of an integer. -/
def size : Scalar → Nat
  | uint16 | int16 => 2
  | uint32 | int32 => 4
  | uint64 | int64 => 8

def isSigned : Scalar → Bool
  | int16 | int32 | int64 => true
  | uint16 | uint32 | uint64 => false

theorem size_pos (t : Scalar) : 0 < t.size := by cases t <;> decide

/-- The number that a word stands for. -/
def toInt (t : Scalar) (w : Word t.size) : Int := if t.isSigned then w.toInt else w.toNat

/-- The word of a number; what does not fit is dropped. -/
def ofInt (t : Scalar) (v : Int) : Word t.size := BitVec.ofInt (8 * t.size) v

end Scalar

end Endian
