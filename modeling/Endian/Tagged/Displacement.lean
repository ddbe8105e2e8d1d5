import Endian.Position
import Endian.Tagged.Basic

/-!
# Displacements

A tagged integer of two or four bytes used as a distance. Added to a plain position it must stay
within the 64 bits of an address; `tail` skips that many bytes; a `Pointer` counts elements and
wraps around.
-/

namespace Endian

/-- A tagged integer used as a distance. -/
inductive Displacement where
  | narrow (o : ByteOrder) (t : Tagged o 2)
  | wide (o : ByteOrder) (t : Tagged o 4)

namespace Displacement

/-- The distance, always positive. -/
def offset : Displacement → Position
  | narrow _ t => UInt64.ofNat t.get.toNat
  | wide _ t => UInt64.ofNat t.get.toNat

instance : HAdd Position Displacement (Except Fault Position) where
  hAdd base d := Position.checkedAdd base d.offset

instance : HAdd Displacement Position (Except Fault Position) where
  hAdd d base := Position.checkedAdd d.offset base

instance : HSub Position Displacement (Except Fault Position) where
  hSub base d := Position.checkedSub base d.offset

/-- The bytes from the displacement on. -/
def tail (data : Array UInt8) (d : Displacement) : Except Error (Array UInt8) :=
  if d.offset.toNat ≤ data.size then .ok (data.extract d.offset.toNat data.size)
  else .error .outOfBounds

end Displacement

/-! ### Pointers -/

/-- An address of elements that are `stride` bytes long. -/
structure Pointer where
  address : Position
  stride : UInt64
deriving DecidableEq, Repr

namespace Pointer

/-- Moves on by as many elements as the displacement says. -/
def forward (p : Pointer) (d : Displacement) : Pointer :=
  { p with address := p.address + d.offset * p.stride }

/-- Moves back by as many elements as the displacement says. -/
def backward (p : Pointer) (d : Displacement) : Pointer :=
  { p with address := p.address - d.offset * p.stride }

instance : HAdd Pointer Displacement Pointer := ⟨forward⟩

instance : HAdd Displacement Pointer Pointer := ⟨fun d p => p.forward d⟩

instance : HSub Pointer Displacement Pointer := ⟨backward⟩

/-- A way to move a pointer, by operator or by name. Whether the elements may be changed through the
pointer makes no difference. -/
inductive Move where
  | plus (d : Displacement)
  /-- The displacement stands before the pointer. -/
  | plusLeft (d : Displacement)
  | forward (d : Displacement)
  | minus (d : Displacement)
  | backward (d : Displacement)

def move (p : Pointer) : Move → Pointer
  | .plus d => p + d
  | .plusLeft d => d + p
  | .forward d => p.forward d
  | .minus d => p - d
  | .backward d => p.backward d

/-- The pointers after each of the moves. -/
def run (p : Pointer) : List Move → List Pointer
  | [] => []
  | m :: ms => p.move m :: run (p.move m) ms

end Pointer

end Endian
