import Endian.Word.Order
import Endian.Word.SignExtend

/-!
# Records of a fixed width

Records of 16, 24, 32 and 64 bits, read into a register that may be wider than the record: 24-bit
records are handled in 32-bit registers.

- `Width.get`, `Width.set`: a record as an unsigned number; what does not fit is dropped.
- `Width.getSigned`: a record as a two's-complement number.
- `Width.compare`, `Width.compareSigned`, `Width.sort`: the order of records by number.
-/

namespace Endian

inductive Width where
  | w16
  | w24
  | w32
  | w64
deriving DecidableEq, Repr

namespace Width

def all : List Width := [w16, w24, w32, w64]

/-- Bytes of a record. -/
def size : Width → Nat
  | w16 => 2
  | w24 => 3
  | w32 => 4
  | w64 => 8

/-- Bits of a record. -/
def bits (k : Width) : Nat := 8 * k.size

/-- Bits of the register that holds the unsigned number. -/
def register : Width → Nat
  | w16 => 16
  | w24 => 32
  | w32 => 32
  | w64 => 64

/-- Bits of the register that holds the signed number. -/
def signedRegister : Width → Nat
  | w64 => 64
  | _ => 32

theorem bits_le_register (k : Width) : k.bits ≤ k.register := by cases k <;> decide

theorem bits_le_signedRegister (k : Width) : k.bits ≤ k.signedRegister := by cases k <;> decide

/-- The number in a record. -/
def get (k : Width) (o : ByteOrder) (bs : Bytes k.size) : BitVec k.register :=
  (Word.load o bs).setWidth k.register

/-- The record of a number, without the bits that do not fit. -/
def set (k : Width) (o : ByteOrder) (v : BitVec k.register) : Bytes k.size :=
  Word.store o (v.setWidth (8 * k.size))

/-- The number in a record, negative where its top bit is set. -/
def getSigned (k : Width) (o : ByteOrder) (bs : Bytes k.size) : Int :=
  (extendByShift k.bits ((Word.load o bs).setWidth k.signedRegister)).toInt

def compare (k : Width) (o : ByteOrder) (a b : Bytes k.size) : Ordering :=
  Ord.compare (k.get o a).toNat (k.get o b).toNat

def compareSigned (k : Width) (o : ByteOrder) (a b : Bytes k.size) : Ordering :=
  Ord.compare (k.getSigned o a) (k.getSigned o b)

/-- Records in ascending order; equal ones keep their places. -/
def sort (k : Width) (o : ByteOrder) (records : List (Bytes k.size)) : List (Bytes k.size) :=
  records.mergeSort fun a b => (k.compare o a b).isLE

def sortSigned (k : Width) (o : ByteOrder) (records : List (Bytes k.size)) : List (Bytes k.size) :=
  records.mergeSort fun a b => (k.compareSigned o a b).isLE

end Width

end Endian
