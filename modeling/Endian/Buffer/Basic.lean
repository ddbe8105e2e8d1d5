import Endian.Position
import Endian.Word.Basic

/-!
# Buffers

A `Buffer` is a sequence of bytes whose size is a position. A field is read with two checks: its end
must be a position, and it must lie in the buffer. `field_of_le` and `field_of_lt` say that both come
down to one: the end, as a natural number, is no more than the size.
-/

namespace Endian

/-- The `n` bytes from `start` on. -/
def bytesAt (data : Array UInt8) (start n : Nat) (h : start + n ≤ data.size) : Bytes n :=
  Vector.ofFn fun i : Fin n =>
    have : start + i.val < data.size := by omega
    data[start + i.val]

/-- The data with `bs` in place of as many bytes from `start` on. -/
def splice (data : Array UInt8) (start : Nat) (bs : Array UInt8) : Array UInt8 :=
  data.extract 0 start ++ bs ++ data.extract (start + bs.size) data.size

theorem size_splice {data bs : Array UInt8} {start : Nat} (h : start + bs.size ≤ data.size) :
    (splice data start bs).size = data.size := by
  simp only [splice, Array.size_append, Array.size_extract]
  omega

structure Buffer where
  bytes : Array UInt8
  size_lt : bytes.size < UInt64.size
deriving DecidableEq

namespace Buffer

def ofArray? (bytes : Array UInt8) : Option Buffer :=
  if h : bytes.size < UInt64.size then some ⟨bytes, h⟩ else none

def size (b : Buffer) : Nat := b.bytes.size

/-- The position after a field of `n` bytes. -/
def fieldEnd (p : Position) (n : Nat) : Except Error Position :=
  if p.toNat + n < UInt64.size then .ok (p + UInt64.ofNat n) else .error .outOfBounds

theorem fieldEnd_of_le {p : Position} {n size : Nat} (hsize : size < UInt64.size)
    (h : p.toNat + n ≤ size) : fieldEnd p n = .ok (p + UInt64.ofNat n) := by
  rw [fieldEnd, if_pos (by omega)]

/-- The `n` bytes at a position. -/
def field (b : Buffer) (p : Position) (n : Nat) : Except Error (Bytes n) :=
  match fieldEnd p n with
  | .error e => .error e
  | .ok _ =>
    if h : p.toNat + n ≤ b.bytes.size then .ok (bytesAt b.bytes p.toNat n h)
    else .error .outOfBounds

/-- The buffer with `bs` from a place on. -/
def replace {n : Nat} (b : Buffer) (start : Nat) (bs : Bytes n) (h : start + n ≤ b.bytes.size) :
    Buffer where
  bytes := splice b.bytes start bs.toArray
  size_lt := by
    have hs : (splice b.bytes start bs.toArray).size = b.bytes.size := size_splice (by simpa using h)
    exact hs ▸ b.size_lt

/-! ### When a field is in the buffer -/

theorem field_of_le {b : Buffer} {p : Position} {n : Nat} (h : p.toNat + n ≤ b.bytes.size) :
    b.field p n = .ok (bytesAt b.bytes p.toNat n h) := by
  rw [field, fieldEnd_of_le b.size_lt h]
  exact dif_pos h

theorem field_of_lt {b : Buffer} {p : Position} {n : Nat} (h : b.bytes.size < p.toNat + n) :
    b.field p n = .error .outOfBounds := by
  unfold field fieldEnd
  split
  · next heq =>
    split at heq
    · cases heq
    · injection heq with heq
      rw [heq]
  · exact dif_neg (by omega)

@[simp] theorem size_replace {n : Nat} (b : Buffer) (start : Nat) (bs : Bytes n)
    (h : start + n ≤ b.bytes.size) : (b.replace start bs h).bytes.size = b.bytes.size :=
  size_splice (by simpa using h)

end Buffer

end Endian
