import Endian.ByteOrder
import Endian.Word.Basic

/-!
# Words in a byte order

A word is read from bytes and written to bytes in a stated order, in two forms.

- `Word.load` and `Word.store` go through the host's memory image and reverse the bytes of the
  word where the order is not the host's.
- `Word.compose` and `Word.split` place one byte at a time by shifts.
- `Register` holds the byte reversals of the low bytes of a wider register.

`load_store` and `store_load` say that reading and writing are inverse to each other.
-/

namespace Endian

namespace Word

variable {n : Nat}

/-- Exchanges a host word with its form in the given order; the exchange undoes itself. -/
def toOrder (o : ByteOrder) (w : Word n) : Word n := if o.isHost then w else w.swapBytes

@[simp] theorem toOrder_toOrder (o : ByteOrder) (w : Word n) : (w.toOrder o).toOrder o = w := by
  by_cases h : o.isHost <;> simp [toOrder, h]

/-! ### Through the memory image -/

/-- The word that `bs` hold in the given order. -/
def load (o : ByteOrder) (bs : Bytes n) : Word n := (ofImage bs).toOrder o

/-- The bytes of a word in the given order. -/
def store (o : ByteOrder) (w : Word n) : Bytes n := (w.toOrder o).image

@[simp] theorem load_store (o : ByteOrder) (w : Word n) : load o (store o w) = w := by
  simp [load, store]

@[simp] theorem store_load (o : ByteOrder) (bs : Bytes n) : store o (load o bs) = bs := by
  simp [load, store]

theorem load_inj {o : ByteOrder} {as bs : Bytes n} : load o as = load o bs ↔ as = bs :=
  ⟨fun h => by rw [← store_load o as, h, store_load], fun h => h ▸ rfl⟩

/-! ### By shifts -/

/-- The bytes placed one after another from bit `s` upwards. -/
def composeFrom (n : Nat) : List UInt8 → Nat → Word n
  | [], _ => 0
  | b :: bs, s => (b.toBitVec.setWidth (8 * n) <<< s) ||| composeFrom n bs (s + 8)

/-- The word that `bs` hold in the given order, put together by shifts. -/
def compose (o : ByteOrder) (bs : Bytes n) : Word n := (composeFrom n bs.toList 0).toOrder o

/-- The bytes of a word in the given order, taken out by shifts. -/
def split (o : ByteOrder) (w : Word n) : Bytes n :=
  Vector.ofFn fun i : Fin n => UInt8.ofBitVec ((w.toOrder o >>> (8 * i.val)).setWidth 8)

end Word

/-! ### The low bytes of a register -/

namespace Register

variable {r : Nat}

/-- The low `n` bytes of a register, the rest cleared. -/
def keepLow (n : Nat) (v : BitVec r) : BitVec r := (v.setWidth (8 * n)).setWidth r

/-- The low `n` bytes of a register in reverse, the rest cleared. -/
def swapLow (n : Nat) (v : BitVec r) : BitVec r :=
  (Word.swapBytes (v.setWidth (8 * n) : Word n)).setWidth r

/-- The low `n` bytes of a host register in the given order, the rest cleared. -/
def toOrder (n : Nat) (o : ByteOrder) (v : BitVec r) : BitVec r :=
  if o.isHost then keepLow n v else swapLow n v

end Register

end Endian
