import Endian.Word.Order
import Endian.Word.SignExtend

/-!
# Numbers and their bytes

Which bytes stand for which number, said by base-256 digits alone and without a word in between.

`ByteOrder.digits` are the bytes of a number in an order and `ByteOrder.number` is the number that
bytes write; the opposite order reverses the bytes. A word is stored as the digits of its number,
by memory image and by shifts alike (`toList_store`, `split_eq_store`), and loads as the number of
its bytes (`toNat_load`). `signedValue` is the two's-complement reading of a number, which sign
extension takes of the low bits of a word (`toInt_extendByShift`).
-/

namespace Endian

/-! ### Digits in an order -/

namespace ByteOrder

/-- The `n` bytes of a number; what they cannot hold is dropped. -/
def digits (o : ByteOrder) (n v : Nat) : List UInt8 :=
  match o with
  | .little => littleDigits n v
  | .big => (littleDigits n v).reverse

/-- The number that bytes write. -/
def number (o : ByteOrder) (bs : List UInt8) : Nat :=
  match o with
  | .little => littleValue bs
  | .big => littleValue bs.reverse

variable (o : ByteOrder) (n v : Nat) (bs : List UInt8)

@[simp] theorem length_digits : (o.digits n v).length = n := by
  cases o <;> simp [digits]

theorem digits_swapped : o.swapped.digits n v = (o.digits n v).reverse := by
  cases o <;> simp [digits, swapped]

theorem number_swapped_reverse : o.swapped.number bs.reverse = o.number bs := by
  cases o <;> simp [number, swapped]

theorem number_lt : o.number bs < digitSpan bs.length := by
  cases o with
  | big => simpa [number] using littleValue_lt bs.reverse
  | little => exact littleValue_lt bs

theorem number_digits : o.number (o.digits n v) = v % digitSpan n := by
  cases o <;> simp [number, digits, littleValue_littleDigits]

theorem digits_number : o.digits bs.length (o.number bs) = bs := by
  cases o with
  | big =>
    have h := littleDigits_littleValue bs.reverse
    rw [List.length_reverse] at h
    simp only [digits, number, h, List.reverse_reverse]
  | little => exact littleDigits_littleValue bs

/-- Digits beyond the last byte are dropped. -/
theorem digits_mod : o.digits n (v % digitSpan n) = o.digits n v := by
  have h := o.digits_number (o.digits n v)
  rwa [length_digits, number_digits] at h

theorem number_replicate : o.number (List.replicate n 0) = 0 := by
  have hzero : littleValue (List.replicate n 0) = 0 := by
    induction n with
    | zero => rfl
    | succ n ih => simp [List.replicate_succ, littleValue, ih]
  cases o <;> simp [number, hzero]

end ByteOrder

theorem getElem_littleDigits (n v i : Nat) (h : i < (littleDigits n v).length) :
    (littleDigits n v)[i] = UInt8.ofNat (v / digitSpan i) := by
  induction n generalizing v i with
  | zero => simp at h
  | succ n ih =>
    cases i with
    | zero => simp [littleDigits]
    | succ i =>
      simp only [littleDigits, List.getElem_cons_succ, ih, Nat.div_div_eq_div_mul, digitSpan_succ]

namespace Word

variable {n : Nat}

theorem toList_store (o : ByteOrder) (w : Word n) : (store o w).toList = o.digits n w.toNat := by
  cases o with
  | big =>
    show w.swapBytes.image.toList = (littleDigits n w.toNat).reverse
    rw [image_swapBytes, Vector.toList_reverse, toList_image]
  | little => rfl

theorem toNat_load (o : ByteOrder) (bs : Bytes n) : (load o bs).toNat = o.number bs.toList := by
  have h := o.number_digits n (load o bs).toNat
  rw [← toList_store, store_load, Nat.mod_eq_of_lt (toNat_lt _)] at h
  exact h.symm

/-- Shifts take out the bytes that the memory image has. -/
theorem split_eq_store (o : ByteOrder) (w : Word n) : split o w = store o w := by
  apply Vector.ext
  intro i hi
  have hspan : 2 ^ (8 * i) = digitSpan i := Nat.pow_mul 2 8 i
  have hlen : i < (littleDigits n (w.toOrder o).toNat).length := by rwa [length_littleDigits]
  have hbyte : (store o w)[i] = (littleDigits n (w.toOrder o).toNat)[i] := rfl
  rw [hbyte, getElem_littleDigits _ _ _ hlen]
  apply UInt8.toNat_inj.mp
  simp only [split, Vector.getElem_ofFn, UInt8.toNat_ofBitVec, BitVec.toNat_setWidth,
    BitVec.toNat_ushiftRight, Nat.shiftRight_eq_div_pow, UInt8.toNat_ofNat', hspan]

end Word

/-! ### Signed numbers -/

/-- The two's-complement reading of a number below `digitSpan n`. -/
def signedValue (n x : Nat) : Int := if 2 * x < digitSpan n then x else x - digitSpan n

theorem Word.toInt_eq_signedValue {n : Nat} (w : Word n) : w.toInt = signedValue n w.toNat := by
  have hspan : 2 ^ (8 * n) = digitSpan n := Nat.pow_mul 2 8 n
  rw [BitVec.toInt_eq_toNat_cond, hspan, signedValue]

section SignExtension

variable {w k : Nat}

theorem extendByShift_eq_signExtend (h : k ≤ w) (v : BitVec w) :
    extendByShift k v = (v.setWidth k).signExtend w := by
  apply BitVec.eq_of_getLsbD_eq
  intro i hi
  have hback : w - k + i - (w - k) = i := by omega
  simp only [extendByShift, BitVec.getLsbD_sshiftRight, BitVec.getLsbD_signExtend,
    BitVec.getLsbD_shiftLeft, BitVec.getLsbD_setWidth, BitVec.msb_eq_getLsbD_last, hback]
  have hbound : ¬ w ≤ i := by omega
  by_cases hik : i < k
  · have hlow : w - k + i < w := by omega
    have hkept : ¬ w - k + i < w - k := by omega
    simp [hi, hbound, hik, hlow, hkept]
  · -- above the field stands its sign bit, or zero where the field is empty
    have hhigh : ¬ w - k + i < w := by omega
    by_cases hk : k = 0
    · simp [hk, hi]
    · have hsign : w - 1 - (w - k) = k - 1 := by omega
      have hlast : w - 1 < w := by omega
      have hkept : ¬ w - 1 < w - k := by omega
      have hbelow : k - 1 < k := by omega
      simp [hi, hik, hbound, hhigh, hsign, hlast, hkept, hbelow]

/-- Sign extension gives the low bits their signed value. -/
theorem toInt_extendByShift (h : k ≤ w) (v : BitVec w) :
    (extendByShift k v).toInt = (v.setWidth k).toInt := by
  rw [extendByShift_eq_signExtend h, BitVec.toInt_signExtend_of_le h]

/-- A number keeps its signed value in a wider register. -/
theorem toInt_extendByShift_setWidth (h : k ≤ w) (v : BitVec k) :
    (extendByShift k (v.setWidth w)).toInt = v.toInt := by
  rw [toInt_extendByShift h, BitVec.setWidth_setWidth_of_le _ h, BitVec.setWidth_eq]

end SignExtension

end Endian
