import Endian.Proofs.Record.Number
import Endian.Proofs.Word.Transfer
import Mathlib.Algebra.BigOperators.Fin

/-!
# Records by position

A record stands for the sum of its bytes, each times the power of 256 of its place, counted from the
end that the order puts last or first (`number_big_eq_sum`, `number_little_eq_sum`). What registers
fetch from a record and deposit into it is that number (`fetch_eq`, `deposit_eq`), so the two are
inverse to each other, and reversing the bytes of a register reverses the digits of its number
(`toNat_swapLow_eq_sum`).
-/

namespace Endian

variable {n : Nat}

/-! ### Sums over places -/

theorem littleValue_ofFn (f : Fin n → UInt8) :
    littleValue (List.ofFn f) = ∑ i, (f i).toNat * 256 ^ (i : Nat) := by
  induction n with
  | zero => rfl
  | succ n ih =>
    rw [List.ofFn_succ, littleValue, ih, Fin.sum_univ_succ, Finset.mul_sum, Fin.val_zero, pow_zero,
      Nat.mul_one]
    refine congrArg _ (Finset.sum_congr rfl fun i _ => ?_)
    rw [Fin.val_succ, pow_succ', Nat.mul_left_comm]

theorem get_ofFn (f : Fin n → UInt8) (i : Fin n) : (Vector.ofFn f).get i = f i :=
  Vector.getElem_ofFn i.isLt

theorem toList_eq_ofFn (bs : Bytes n) : bs.toList = List.ofFn bs.get := by
  have h : bs = Vector.ofFn bs.get := by
    apply Vector.ext
    intro i hi
    rw [Vector.getElem_ofFn]
    rfl
  have hlist := congrArg Vector.toList h
  rwa [Vector.toList_ofFn] at hlist

theorem littleDigits_eq_ofFn (n v : Nat) :
    littleDigits n v = List.ofFn fun i : Fin n => UInt8.ofNat (v / digitSpan i) := by
  apply List.ext_getElem (by simp)
  intro i _ _
  rw [getElem_littleDigits, List.getElem_ofFn]

namespace ByteOrder

theorem number_little_eq_sum (bs : Bytes n) :
    little.number bs.toList = ∑ i, (bs.get i).toNat * 256 ^ (i : Nat) := by
  rw [number, toList_eq_ofFn, littleValue_ofFn]

theorem number_big_eq_sum (bs : Bytes n) :
    big.number bs.toList = ∑ i, (bs.get i).toNat * 256 ^ (n - 1 - i) := by
  have hreverse : ∀ i : Fin n, bs.reverse.get i = bs.get i.rev := by
    intro i
    have hplace : n - 1 - (i : Nat) = n - (i + 1) := by omega
    show bs.reverse[(i : Nat)] = bs[n - (i + 1)]
    rw [Vector.getElem_reverse]
    simp only [hplace]
  calc big.number bs.toList
      = little.number bs.reverse.toList := by rw [number, number, Vector.toList_reverse]
    _ = ∑ i : Fin n, (bs.get i.rev).toNat * 256 ^ (i : Nat) := by
        simp only [number_little_eq_sum, hreverse]
    _ = ∑ i : Fin n, (bs.get i).toNat * 256 ^ (i.rev : Nat) := by
        rw [← Equiv.sum_comp Fin.revPerm]
        simp only [Fin.revPerm_apply, Fin.rev_rev]
    _ = ∑ i, (bs.get i).toNat * 256 ^ (n - 1 - i) := by
        refine Finset.sum_congr rfl fun i _ => ?_
        have hplace : (i.rev : Nat) = n - 1 - i := by
          rw [Fin.val_rev]
          omega
        rw [hplace]

end ByteOrder

/-! ### Bytes of a register in reverse -/

namespace Register

theorem toNat_keepLow (v : BitVec (bits n)) : (keepLow n v).toNat = v.toNat % 2 ^ (8 * n) := by
  rw [keepLow, BitVec.toNat_setWidth_of_le (le_bits n), BitVec.toNat_setWidth]

theorem toNat_swapLow (v : BitVec (bits n)) :
    (swapLow n v).toNat = ByteOrder.big.number (littleDigits n v.toNat) := by
  have hspan : 2 ^ (8 * n) = digitSpan n := Nat.pow_mul 2 8 n
  rw [swapLow, BitVec.toNat_setWidth_of_le (le_bits n), Word.toNat_swapBytes, Word.toList_image,
    BitVec.toNat_setWidth, hspan]
  exact congrArg ByteOrder.big.number (ByteOrder.little.digits_mod n v.toNat)

/-- Reversing the low bytes reverses the digits of their number. -/
theorem toNat_swapLow_eq_sum (v : BitVec (bits n)) :
    (swapLow n v).toNat = ∑ i : Fin n, v.toNat / 256 ^ (i : Nat) % 256 * 256 ^ (n - 1 - i) := by
  rw [toNat_swapLow, littleDigits_eq_ofFn, ← Vector.toList_ofFn, ByteOrder.number_big_eq_sum]
  refine Finset.sum_congr rfl fun i _ => ?_
  have hspan : digitSpan i = 256 ^ (i : Nat) := rfl
  rw [get_ofFn, UInt8.toNat_ofNat', hspan]

theorem swapLow_swapLow (v : BitVec (bits n)) : swapLow n (swapLow n v) = keepLow n v := by
  rw [swapLow, swapLow, setWidth_setWidth_bits, Word.swapBytes_swapBytes, keepLow]

/-! ### Three bytes -/

variable (o : ByteOrder)

theorem toList_eq_three (bs : Bytes 3) : bs.toList = [bs.get 0, bs.get 1, bs.get 2] := by
  rw [toList_eq_ofFn, List.ofFn_succ, List.ofFn_succ, List.ofFn_succ, List.ofFn_zero]
  rfl

/-- Three bytes, least significant first, put together in a register of four. -/
theorem toNat_three (a b c : UInt8) :
    (a.toBitVec.setWidth 32 ||| b.toBitVec.setWidth 32 <<< 8 |||
      c.toBitVec.setWidth 32 <<< 16 : BitVec 32).toNat = littleValue [a, b, c] := by
  have h := Word.toNat_composeFrom (n := 4) (k := 0) [a, b, c] (by simp)
  rw [Nat.mul_zero, digitSpan_zero, Nat.one_mul] at h
  rw [← h, BitVec.or_assoc]
  simp only [Word.composeFrom, BitVec.shiftLeft_zero, BitVec.ofNat_eq_ofNat, BitVec.or_zero,
    Nat.zero_add, Nat.reduceAdd, Nat.reduceMul]

theorem toNat_ofThree (bs : Bytes 3) : (ofThree o bs).toNat = o.number bs.toList := by
  rw [toList_eq_three]
  cases o with
  | big =>
    have h := toNat_three (bs.get 2) (bs.get 1) (bs.get 0)
    rw [BitVec.or_comm, BitVec.or_comm (BitVec.setWidth 32 _), ← BitVec.or_assoc] at h
    exact h
  | little => exact toNat_three _ _ _

theorem digits_three (v : BitVec 32) :
    littleDigits 3 v.toNat = [byteAt v 0, byteAt v 8, byteAt v 16] := by
  rw [littleDigits_eq_ofFn]
  simp only [← byteAt_eq (r := 32) (by decide) v]
  rw [List.ofFn_succ, List.ofFn_succ, List.ofFn_succ, List.ofFn_zero]
  rfl

theorem toList_putThree (v : BitVec 32) (dest : Bytes 3) :
    (putThree o v dest).toList = o.digits 3 v.toNat := by
  have hset (a b c : UInt8) : (((dest.set 0 a).set 1 b).set 2 c).toList = [a, b, c] := by
    rw [Vector.toList_set, Vector.toList_set, Vector.toList_set, toList_eq_three]
    rfl
  cases o with
  | big =>
    rw [putThree, hset, ByteOrder.digits, digits_three]
    rfl
  | little => rw [putThree, hset, ByteOrder.digits, digits_three]

end Register

/-! ### Records -/

namespace Width

variable (k : Width) (o : ByteOrder)

theorem fetch_eq (bs : Bytes k.size) : k.fetch o bs = k.get o bs := by
  cases k with
  | w24 =>
    apply BitVec.eq_of_toNat_eq
    exact (Register.toNat_ofThree o bs).trans (toNat_get .w24 o bs).symm
  | _ => exact (Transfer.whole.load_eq o bs).trans (BitVec.setWidth_eq _).symm

theorem deposit_eq (v : BitVec k.register) (dest : Bytes k.size) :
    k.deposit o v dest = k.set o v := by
  cases k with
  | w24 =>
    apply Vector.toList_inj.mp
    exact (Register.toList_putThree o v dest).trans (toList_set .w24 o v).symm
  | _ =>
    have hstore := Transfer.whole.store_eq o dest v
    exact hstore.trans (congrArg (Word.store o) (BitVec.setWidth_eq _).symm)

theorem register_le_signedRegister : k.register ≤ k.signedRegister := by cases k <;> decide

theorem fetchSigned_eq (bs : Bytes k.size) : k.fetchSigned o bs = .ok (k.getSigned o bs) := by
  have hbits : 8 * k.size ≤ k.signedRegister := k.bits_le_signedRegister
  have hword :
      (k.get o bs).setWidth k.signedRegister = (Word.load o bs).setWidth k.signedRegister := by
    apply BitVec.eq_of_toNat_eq
    rw [BitVec.toNat_setWidth_of_le k.register_le_signedRegister, BitVec.toNat_setWidth_of_le hbits,
      k.toNat_get, Word.toNat_load]
  have hpos : 1 ≤ k.bits := by cases k <;> decide
  rw [fetchSigned, fetch_eq, hword, getSigned]
  exact signExtendShift_of_le hpos k.bits_le_signedRegister

theorem two_pow_bits : 2 ^ k.bits = digitSpan k.size := Nat.pow_mul 2 8 k.size

theorem toNat_fetch (bs : Bytes k.size) : (k.fetch o bs).toNat = o.number bs.toList := by
  rw [fetch_eq, toNat_get]

theorem toList_deposit (v : BitVec k.register) (dest : Bytes k.size) :
    (k.deposit o v dest).toList = o.digits k.size v.toNat := by
  rw [deposit_eq, toList_set]

theorem toNat_fetch_deposit (v : BitVec k.register) (dest : Bytes k.size) :
    (k.fetch o (k.deposit o v dest)).toNat = v.toNat % 2 ^ k.bits := by
  rw [toNat_fetch, toList_deposit, o.number_digits, two_pow_bits]

/-- The register of a number has as many bits as its record, but for three bytes. -/
theorem mod_two_pow_bits (v : BitVec k.register) :
    v.toNat % 2 ^ k.bits = if k = w24 then v.toNat % 2 ^ 24 else v.toNat := by
  cases k with
  | w24 => rfl
  | _ => exact Nat.mod_eq_of_lt v.isLt

theorem deposit_fetch (bs dest : Bytes k.size) : k.deposit o (k.fetch o bs) dest = bs := by
  have hlen : bs.toList.length = k.size := Vector.length_toList
  have hdigits := o.digits_number bs.toList
  rw [hlen] at hdigits
  apply Vector.toList_inj.mp
  rw [toList_deposit, toNat_fetch, hdigits]

/-- Exactly the low bits of a number are written, over whatever the record held. -/
theorem deposit_eq_iff (v v' : BitVec k.register) (dest dest' : Bytes k.size) :
    k.deposit o v dest = k.deposit o v' dest' ↔ v.toNat % 2 ^ k.bits = v'.toNat % 2 ^ k.bits := by
  rw [← Vector.toList_inj, toList_deposit, toList_deposit, two_pow_bits]
  constructor
  · intro h
    rw [← o.number_digits, h, o.number_digits]
  · intro h
    rw [← o.digits_mod, h, o.digits_mod]

theorem fetch_reverse (bs : Bytes k.size) : k.fetch o.swapped bs.reverse = k.fetch o bs := by
  apply BitVec.eq_of_toNat_eq
  rw [toNat_fetch, toNat_fetch, Vector.toList_reverse, o.number_swapped_reverse]

theorem deposit_swapped (v : BitVec k.register) (dest : Bytes k.size) :
    k.deposit o.swapped v dest = (k.deposit o v dest).reverse := by
  apply Vector.toList_inj.mp
  rw [Vector.toList_reverse, toList_deposit, toList_deposit, o.digits_swapped]

end Width

/-- A word is stored in one order as its reverse in the other. -/
theorem Transfer.store_swapLow (m : Transfer) (w : Word n) (dest : Bytes n) :
    m.store .little ((Register.swapLow n (w.setWidth (Register.bits n))).setWidth (8 * n)) dest =
      m.store .big w dest := by
  rw [Register.swapLow, Register.setWidth_setWidth_bits, Register.setWidth_setWidth_bits, store_eq,
    store_eq]
  rfl

/-- A record is read as the sum of its bytes by place, from the last one on or from the first, and
reading and writing undo each other up to the bits that a record does not hold. Reversing the low
bytes of a register reverses the digits of its number; done twice it only clears the bits above
them, and done once it turns one order into the other. -/
theorem transfers_positional :
    (∀ (k : Width) (bs dest dest' : Bytes k.size) (v v' : BitVec k.register),
      (k.fetch .big bs).toNat = ∑ i, (bs.get i).toNat * 256 ^ (k.size - 1 - i) ∧
      (k.fetch .little bs).toNat = ∑ i, (bs.get i).toNat * 256 ^ (i : Nat) ∧
      ∀ o : ByteOrder,
        (k.fetch o (k.deposit o v dest)).toNat =
          (if k = .w24 then v.toNat % 2 ^ 24 else v.toNat) ∧
        (k.deposit o v dest = k.deposit o v' dest' ↔
          v.toNat % 2 ^ k.bits = v'.toNat % 2 ^ k.bits) ∧
        k.deposit o (k.fetch o bs) dest = bs ∧
        k.fetch o.swapped bs.reverse = k.fetch o bs ∧
        k.deposit o.swapped v dest = (k.deposit o v dest).reverse) ∧
    ∀ (n : Nat) (v : BitVec (Register.bits n)),
      (Register.swapLow n v).toNat =
        ∑ i : Fin n, v.toNat / 256 ^ (i : Nat) % 256 * 256 ^ (n - 1 - i) ∧
      Register.swapLow n (Register.swapLow n v) = Register.keepLow n v ∧
      (Register.keepLow n v).toNat = v.toNat % 2 ^ (8 * n) ∧
      ∀ (m : Transfer) (w : Word n) (dest : Bytes n),
        m.store .big w dest =
          m.store .little ((Register.swapLow n (w.setWidth (Register.bits n))).setWidth (8 * n))
            dest := by
  refine ⟨fun k bs dest dest' v v' => ⟨?_, ?_, fun o => ⟨?_, ?_, ?_, ?_, ?_⟩⟩,
    fun n v => ⟨?_, ?_, ?_, fun m w dest => ?_⟩⟩
  · rw [k.toNat_fetch, ByteOrder.number_big_eq_sum]
  · rw [k.toNat_fetch, ByteOrder.number_little_eq_sum]
  · rw [k.toNat_fetch_deposit, k.mod_two_pow_bits]
  · exact k.deposit_eq_iff o v v' dest dest'
  · exact k.deposit_fetch o bs dest
  · exact k.fetch_reverse o bs
  · exact k.deposit_swapped o v dest
  · exact Register.toNat_swapLow_eq_sum v
  · exact Register.swapLow_swapLow v
  · exact Register.toNat_keepLow v
  · exact (m.store_swapLow w dest).symm

end Endian
