import Endian.Proofs.Tagged.Plain
import Endian.Record

/-!
# Records as numbers

What the accesses to a record read and write, said by digits alone: `toNat_get` and `getSigned_eq`
for the two readings, `toList_set` for the store, `compare_eq_number` and `compareSigned_eq_number`
for the comparisons. A tagged integer reads and compares as the record that it is kept in.
-/

namespace Endian

namespace Width

variable (k : Width) (o : ByteOrder)

theorem toNat_get (bs : Bytes k.size) : (k.get o bs).toNat = o.number bs.toList := by
  have hbits : 8 * k.size ≤ k.register := k.bits_le_register
  rw [get, BitVec.toNat_setWidth_of_le hbits, Word.toNat_load]

theorem get_eq_ofNat (bs : Bytes k.size) :
    k.get o bs = BitVec.ofNat k.register (o.number bs.toList) := by
  rw [← k.toNat_get, BitVec.ofNat_toNat, BitVec.setWidth_eq]

theorem getSigned_eq (bs : Bytes k.size) :
    k.getSigned o bs = signedValue k.size (o.number bs.toList) := by
  have hbits : 8 * k.size ≤ k.signedRegister := k.bits_le_signedRegister
  rw [getSigned, bits, toInt_extendByShift_setWidth hbits, Word.toInt_eq_signedValue,
    Word.toNat_load]

theorem toList_set (v : BitVec k.register) : (k.set o v).toList = o.digits k.size v.toNat := by
  have hspan : 2 ^ (8 * k.size) = digitSpan k.size := Nat.pow_mul 2 8 k.size
  rw [set, Word.toList_store, BitVec.toNat_setWidth, hspan, o.digits_mod]

variable {k o}

theorem compare_eq_number (a b : Bytes k.size) :
    k.compare o a b = Ord.compare (o.number a.toList) (o.number b.toList) := by
  rw [compare, k.toNat_get, k.toNat_get]

theorem compareSigned_eq_number (a b : Bytes k.size) :
    k.compareSigned o a b = Ord.compare (signedValue k.size (o.number a.toList))
      (signedValue k.size (o.number b.toList)) := by
  rw [compareSigned, k.getSigned_eq, k.getSigned_eq]

end Width

namespace Tagged

variable {o : ByteOrder} {k : Width}

theorem toNat_get_record (t : Tagged o k.size) : t.get.toNat = (k.get o t.bytes).toNat := by
  rw [k.toNat_get, get, Word.toNat_load]

theorem getSigned_record (t : Tagged o k.size) : t.getSigned = k.getSigned o t.bytes := by
  rw [getSigned_eq, k.getSigned_eq, get, Word.toNat_load]

theorem compare_record (s t : Tagged o k.size) :
    Ord.compare s t = k.compare o s.bytes t.bytes := by
  show Ord.compare s.get.toNat t.get.toNat = _
  rw [toNat_get_record, toNat_get_record]
  rfl

theorem compareUnsigned_record (s t : Tagged o k.size) :
    s.compareUnsigned t = k.compare o s.bytes t.bytes :=
  compare_record s t

theorem compareSigned_record (s t : Tagged o k.size) :
    s.compareSigned t = k.compareSigned o s.bytes t.bytes := by
  rw [compareSigned, getSigned_record, getSigned_record]
  rfl

end Tagged

/-! ### Comparisons -/

theorem compare_natCast (x y : Nat) : Ord.compare (x : Int) (y : Int) = Ord.compare x y := by
  simp only [Ord.compare, compareOfLessAndEq, Int.ofNat_lt, Int.natCast_inj]

end Endian
