import Endian.Buffer.Basic
import Endian.Guard.Layout
import Endian.Guard.Owned

/-!
# Rows in memory

A row is moved into a region of memory that is its own: a header with the number of its elements, and
behind it the elements side by side. A slot keeps the address of the first element and nothing else.
The header is found from that address, and from the header the number of elements, so that the slots
of one table can own rows of different lengths.
-/

namespace Endian

/-! ### Memory -/

/-- A piece of memory at an address. -/
structure Region where
  base : Nat
  bytes : Array UInt8
deriving DecidableEq

namespace Region

/-- Memory as it comes from an allocator, with any bytes in it. -/
def fresh (base size : Nat) (stray : Nat → UInt8) : Region where
  base := base
  bytes := Array.ofFn fun i : Fin size => stray i.val

/-- The `n` bytes at an address. What lies outside the region reads as zero. -/
def read (m : Region) (address n : Nat) : Bytes n :=
  Vector.ofFn fun i : Fin n => m.bytes.getD (address - m.base + i.val) 0

/-- The region with `bs` at an address. -/
def write (m : Region) (address : Nat) (bs : Array UInt8) : Region :=
  { m with bytes := splice m.bytes (address - m.base) bs }

end Region

/-! ### Values in memory -/

/-- Values that lie in memory in a fixed number of bytes. -/
class Inline (α : Type) where
  layout : Layout
  image : α → Bytes layout.size
  ofImage : Bytes layout.size → α
  align_pos : 0 < layout.align
  ofImage_image : ∀ a, ofImage (image a) = a

instance : Inline Unit where
  layout := ⟨0, 1⟩
  image _ := #v[]
  ofImage _ := ()
  align_pos := by decide
  ofImage_image _ := rfl

instance : Inline UInt8 where
  layout := ⟨1, 1⟩
  image b := #v[b]
  ofImage bs := bs[0]
  align_pos := by decide
  ofImage_image _ := rfl

instance : Inline (BitVec 128) where
  layout := ⟨16, 16⟩
  image w := Word.image (n := 16) w
  ofImage bs := Word.ofImage bs
  align_pos := by decide
  ofImage_image := Word.ofImage_image (n := 16)

/-- An object with an identity of four bytes, which may be a bomb. -/
structure Mark where
  id : UInt32
  isBomb : Bool := false
deriving DecidableEq, Repr

instance : Element Mark :=
  ⟨fun m => if m.isBomb then .bomb m.id.toNat else .recorded m.id.toNat⟩

theorem eq_four (bs : Bytes 4) : #v[bs[0], bs[1], bs[2], bs[3]] = bs := by
  apply Vector.ext
  intro i hi
  obtain rfl | rfl | rfl | rfl : i = 0 ∨ i = 1 ∨ i = 2 ∨ i = 3 := by omega
  all_goals rfl

/-- The identity, the flag, and padding. -/
instance : Inline Mark where
  layout := ⟨8, 4⟩
  image m :=
    let id := Word.image (n := 4) m.id.toBitVec
    #v[id[0], id[1], id[2], id[3], if m.isBomb then 1 else 0, 0, 0, 0]
  ofImage bs := ⟨.ofBitVec (Word.ofImage (n := 4) #v[bs[0], bs[1], bs[2], bs[3]]), bs[4] == 1⟩
  align_pos := by decide
  ofImage_image m := by
    have hid : (⟨.ofBitVec (Word.ofImage (n := 4) (Word.image m.id.toBitVec)), m.isBomb⟩ : Mark) = m := by
      rw [Word.ofImage_image]
    rw [← eq_four (Word.image _)] at hid
    refine Eq.trans ?_ hid
    cases m.isBomb <;> rfl

/-! ### Rows -/

/-- What a slot of rows refers to: the address of a first element, and the memory around it. -/
structure Allocation (α : Type) where
  region : Region
  first : Nat
deriving DecidableEq

namespace Allocation

variable {α : Type} [Inline α]

/-- The bytes of elements side by side. -/
def rowImage (items : List α) : Array UInt8 :=
  (items.flatMap fun a => (Inline.image a).toList).toArray

/-- Moves a row into a region at the given address. -/
def ofRow (base : Nat) (stray : Nat → UInt8) (items : List α) : Except Fault (Allocation α) :=
  (Placed.place (Inline.layout α) items.length base).map fun p =>
    let header := Word.image (BitVec.ofNat (8 * 8) items.length : Word 8)
    let region := Region.fresh p.base p.layout.size stray
    ⟨(region.write p.base header.toArray).write p.first (rowImage items), p.first⟩

/-- The number of elements, which the header tells. -/
def length (a : Allocation α) : Except Fault Nat :=
  (Placed.headerOf (Inline.layout α) a.first).map fun header =>
    (Word.ofImage (a.region.read header 8)).toNat

/-- The element at a place of the row. -/
def item (a : Allocation α) (i : Nat) : α :=
  let size := (Inline.layout α).size
  Inline.ofImage (a.region.read (a.first + size * i) size)

def items (a : Allocation α) (len : Nat) : List α := List.ofFn fun i : Fin len => a.item i.val

end Allocation

/-- A row in memory is released element by element, and then the allocation that is found from the
first element and their number. -/
instance {α : Type} [Inline α] [Element α] : Owned (Allocation α) α where
  strategy := .array
  first? a := a.length.toOption.bind fun len => if len = 0 then none else some (a.item 0)
  row? a := a.length.toOption.map a.items
  destroy unwinding a :=
    match a.length.bind fun len => Placed.recover (Inline.layout α) len a.first |>.map fun _ => len with
    | .ok len => destroyAll unwinding (a.items len)
    | .error f => { fault := some f }

end Endian
