import Endian.Proofs.Word.Mask
import Endian.Proofs.Word.Number
import Mathlib.Data.Int.ModEq

/-!
# Sign extension as arithmetic

`TwosComplement bits x r` says by a range and a congruence which number `r` the low `bits` bits of
`x` stand for; there is exactly one (`twosComplement_iff`). Both forms of sign extension give it:
the shifts move the field to the top of the word and back (`toInt_extendByShift_eq_bmod`), and
subtracting the sign bit from the bits below it leaves the same word (`extendByMask_eq`), at full
width as well, where the subtraction wraps around.
-/

namespace Endian

/-- The number `r` is congruent to `x` modulo `2 ^ bits` and lies in the range of signed numbers of
that many bits. -/
def TwosComplement (bits x : Nat) (r : Int) : Prop :=
  -2 ^ (bits - 1) ≤ r ∧ r < 2 ^ (bits - 1) ∧ r ≡ x [ZMOD 2 ^ bits]

instance (bits x : Nat) (r : Int) : Decidable (TwosComplement bits x r) :=
  inferInstanceAs (Decidable (_ ∧ _ ∧ _))

/-- In every residue class modulo `2 ^ bits` there is exactly one signed number of that many
bits. -/
theorem signed_iff_eq_bmod {bits : Nat} (hbits : 1 ≤ bits) (x r : Int) :
    -2 ^ (bits - 1) ≤ r ∧ r < 2 ^ (bits - 1) ∧ r ≡ x [ZMOD 2 ^ bits] ↔ r = x.bmod (2 ^ bits) := by
  obtain ⟨b, rfl⟩ := Nat.exists_eq_add_of_le' hbits
  have hspan : ((2 ^ (b + 1) : Nat) : Int) = 2 * 2 ^ b := by
    push_cast
    ring
  have hlow : ((2 ^ (b + 1) : Nat) : Int) / 2 = 2 ^ b := by omega
  have hhigh : (((2 ^ (b + 1) : Nat) : Int) + 1) / 2 = 2 ^ b := by omega
  have hmod : r ≡ x [ZMOD 2 ^ (b + 1)] ↔ ((2 ^ (b + 1) : Nat) : Int) ∣ r - x := by
    rw [Int.modEq_comm, Int.modEq_iff_dvd]
    push_cast
    rfl
  rw [eq_comm, Int.bmod_eq_iff (Nat.two_pow_pos _), hlow, hhigh, ← hmod]
  rfl

theorem twosComplement_iff {bits x : Nat} {r : Int} (hbits : 1 ≤ bits) :
    TwosComplement bits x r ↔ r = (x : Int).bmod (2 ^ bits) :=
  signed_iff_eq_bmod hbits x r

section Extension

variable {w b bits : Nat}

theorem toInt_extendByShift_eq_bmod (h : bits ≤ w) (v : BitVec w) :
    (extendByShift bits v).toInt = (v.toNat : Int).bmod (2 ^ bits) := by
  rw [toInt_extendByShift h, BitVec.toInt_setWidth]

/-- The sign bit, subtracted from the bits below it, sets all bits from its place on. -/
theorem extendByMask_succ (v : BitVec w) :
    extendByMask (b + 1) v = (v &&& maskBelow w b) |||
      if v.getLsbD b then ~~~maskBelow w b else 0#w := by
  show (v &&& maskBelow w b) - (v &&& BitVec.twoPow w b) = _
  rw [BitVec.and_twoPow]
  by_cases hsign : v.getLsbD b = true
  · have hdisjoint : v &&& maskBelow w b &&& ~~~maskBelow w b = 0#w := by
      rw [BitVec.and_assoc, BitVec.and_not_self]
      exact BitVec.and_zero
    rw [if_pos hsign, if_pos hsign, BitVec.sub_eq_add_neg, neg_twoPow,
      BitVec.add_eq_or_of_and_eq_zero _ _ hdisjoint]
  · rw [if_neg hsign, if_neg hsign, BitVec.sub_zero, BitVec.or_zero]

theorem getLsbD_extendByMask (hb : b < w) (v : BitVec w) {i : Nat} (hi : i < w) :
    (extendByMask (b + 1) v).getLsbD i = if i < b then v.getLsbD i else v.getLsbD b := by
  rw [extendByMask_succ, BitVec.getLsbD_or, BitVec.getLsbD_and, getLsbD_maskBelow hb]
  by_cases hsign : v.getLsbD b = true
  · rw [if_pos hsign, BitVec.getLsbD_not, getLsbD_maskBelow hb, decide_eq_true hi, hsign]
    by_cases hlow : i < b <;> simp [hlow]
  · rw [if_neg hsign, BitVec.getLsbD_zero, Bool.eq_false_iff.2 hsign]
    by_cases hlow : i < b <;> simp [hlow]

theorem extendByMask_eq (hbits : 1 ≤ bits) (h : bits ≤ w) (v : BitVec w) :
    extendByMask bits v = extendByShift bits v := by
  obtain ⟨b, rfl⟩ := Nat.exists_eq_add_of_le' hbits
  rw [extendByShift_eq_signExtend h]
  apply BitVec.eq_of_getLsbD_eq
  intro i hi
  have hsign : (v.setWidth (b + 1)).msb = v.getLsbD b := by
    rw [BitVec.msb_setWidth]
    simp
  rw [getLsbD_extendByMask h v hi, BitVec.getLsbD_signExtend, decide_eq_true hi, Bool.true_and,
    hsign, BitVec.getLsbD_setWidth]
  -- below the sign bit, at its place, and above it
  rcases Nat.lt_trichotomy i b with hlow | rfl | hhigh
  · have hfield : i < b + 1 := by omega
    simp [hlow, hfield]
  · simp
  · have hfield : ¬ i < b + 1 := by omega
    have hlow : ¬ i < b := by omega
    simp [hlow, hfield]

theorem signExtendMask_of_le {v : BitVec w} (hbits : 1 ≤ bits) (h : bits ≤ w) :
    signExtendMask v bits = .ok (extendByMask bits v).toInt := by
  unfold signExtendMask
  rw [checkField, if_pos ⟨hbits, h⟩]
  rfl

theorem signExtendMask_of_not {v : BitVec w} (h : ¬ (1 ≤ bits ∧ bits ≤ w)) :
    signExtendMask v bits = .error (.fieldWidth w) := by
  unfold signExtendMask
  rw [checkField, if_neg h]
  rfl

/-- All forms of sign extension give the one number that the field stands for in two's complement,
whatever the bits above it, and refuse a field that is empty or wider than the word. -/
theorem signExtend_forms (v : BitVec w) (bits : Nat) :
    (1 ≤ bits ∧ bits ≤ w → ∃ r : Int, (∀ s, TwosComplement bits v.toNat s ↔ s = r) ∧
        signExtend v bits = .ok r ∧ signExtendShift v bits = .ok r ∧
        signExtendMask v bits = .ok r) ∧
      (¬ (1 ≤ bits ∧ bits ≤ w) → signExtend v bits = .error (.fieldWidth w) ∧
        signExtendShift v bits = .error (.fieldWidth w) ∧
        signExtendMask v bits = .error (.fieldWidth w)) := by
  constructor
  · rintro ⟨hbits, h⟩
    have hshift : signExtendShift v bits = .ok ((v.toNat : Int).bmod (2 ^ bits)) := by
      rw [signExtendShift_of_le hbits h, toInt_extendByShift_eq_bmod h]
    have hmask : signExtendMask v bits = .ok ((v.toNat : Int).bmod (2 ^ bits)) := by
      rw [signExtendMask_of_le hbits h, extendByMask_eq hbits h, toInt_extendByShift_eq_bmod h]
    exact ⟨_, fun s => twosComplement_iff hbits, hshift, hshift, hmask⟩
  · intro h
    have hshift : signExtendShift v bits = .error (.fieldWidth w) :=
      signExtendShift_eq_error_iff.2 ⟨h, rfl⟩
    exact ⟨hshift, hshift, signExtendMask_of_not h⟩

/-- At full width the subtraction of the sign bit wraps around; bits above a field are left out. -/
theorem signExtend_forms_bounds :
    signExtendMask (0x80000000 : BitVec 32) 32 = .ok (-0x80000000) ∧
      signExtend (0xFFFFFF01 : BitVec 32) 8 = .ok 1 ∧
      signExtendMask (1 : BitVec 32) 0 = .error (.fieldWidth 32) := by
  obtain ⟨r, hr, -, -, hmask⟩ := (signExtend_forms (0x80000000 : BitVec 32) 32).1 (by decide)
  obtain ⟨s, hs, hext, -⟩ := (signExtend_forms (0xFFFFFF01 : BitVec 32) 8).1 (by decide)
  have hlow : (-0x80000000 : Int) = r := (hr _).1 (by decide +kernel)
  have hone : (1 : Int) = s := (hs _).1 (by decide +kernel)
  rw [hmask, hext, ← hlow, ← hone]
  exact ⟨rfl, rfl, ((signExtend_forms (1 : BitVec 32) 0).2 (by decide)).2.2⟩

end Extension

end Endian
