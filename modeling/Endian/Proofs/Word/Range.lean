import Endian.Proofs.Word.Rounding
import Mathlib.Data.BitVec
import Mathlib.Tactic.Ring

/-!
# Rounding stays in the word

Both roundings multiply a quotient by its divisor, which cannot leave the word. So the alignment zero
is the only fault, and what comes out is a multiple of the alignment, even where the sum in front of
the division wraps around. The distance to it is `a - 1` less the remainder of that sum
(`roundUp_sub_self`) and so below the alignment in any case.
-/

namespace Endian

/-! ### Numbers -/

/-- The multiples of `a` that are not above `v`. -/
def multiplesUpTo (v a : Nat) : Set Nat := {k | a ∣ k ∧ k ≤ v}

theorem isGreatest_div_mul {v a : Nat} (ha : 0 < a) :
    IsGreatest (multiplesUpTo v a) (v / a * a) := by
  refine ⟨⟨Nat.dvd_mul_left a _, Nat.div_mul_le_self v a⟩, ?_⟩
  rintro k ⟨⟨q, rfl⟩, hk⟩
  have hq : q ≤ v / a := (Nat.le_div_iff_mul_le ha).2 (Nat.mul_comm a q ▸ hk)
  rw [Nat.mul_comm]
  exact Nat.mul_le_mul_right a hq

/-! ### Words -/

variable {w : Nat} {v a : BitVec w}

theorem udiv_mul_eq_sub (v a : BitVec w) : v / a * a = v - v % a := by
  have hle : v % a ≤ v := by
    rw [BitVec.le_def, BitVec.toNat_umod]
    exact Nat.mod_le _ _
  apply BitVec.eq_of_toNat_eq
  rw [toNat_udiv_mul, BitVec.toNat_sub_of_le hle, BitVec.toNat_umod, Nat.div_mul_self_eq_mod_sub_self]

/-- How far rounding up goes. -/
theorem roundUp_sub_self (v a : BitVec w) :
    (v + (a - 1#w)) / a * a - v = (a - 1#w) - (v + (a - 1#w)) % a := by
  rw [udiv_mul_eq_sub]
  ring

theorem roundUp_sub_self_lt (v : BitVec w) (ha : a ≠ 0#w) : (v + (a - 1#w)) / a * a - v < a := by
  have hpos := toNat_pos_of_ne_zero ha
  have hrest : (v + (a - 1#w)) % a ≤ a - 1#w := by
    have hlt := Nat.mod_lt (v + (a - 1#w)).toNat hpos
    rw [BitVec.le_def, toNat_sub_one ha, BitVec.toNat_umod]
    omega
  rw [roundUp_sub_self, BitVec.lt_def, BitVec.toNat_sub_of_le hrest, toNat_sub_one ha]
  omega

theorem le_roundUp_or_eq_zero (v : BitVec w) (ha : a ≠ 0#w) :
    v ≤ (v + (a - 1#w)) / a * a ∨ (v + (a - 1#w)) / a * a = 0#w := by
  cases h : v.uaddOverflow (a - 1#w) with
  | true => exact .inr (roundUp_of_overflow ha h)
  | false =>
    refine .inl ?_
    rw [BitVec.le_def, toNat_roundUp_of_fits ha h]
    exact (isLeast_roundUp (toNat_pos_of_ne_zero ha)).1.2

/-! ### Faults -/

theorem exists_alignDown_eq_error_iff : (∃ f, alignDown v a = .error f) ↔ a = 0#w := by
  constructor
  · rintro ⟨f, hf⟩
    by_contra ha
    rw [alignDown_of_ne_zero v ha] at hf
    cases hf
  · rintro rfl
    exact ⟨_, alignDown_zero v⟩

theorem exists_alignUp_eq_error_iff : (∃ f, alignUp v a = .error f) ↔ a = 0#w := by
  constructor
  · rintro ⟨f, hf⟩
    by_contra ha
    rw [alignUp_of_ne_zero v ha] at hf
    cases hf
  · rintro rfl
    unfold alignUp
    cases checkedSub 0#w 1#w with
    | error f => exact ⟨f, rfl⟩
    | ok rest =>
      -- only the word without bits gets as far as the division
      show ∃ f, (do let q ← checkedDiv (v + rest) 0#w; return q * 0#w) = Except.error f
      rw [checkedDiv, if_pos rfl]
      exact ⟨_, rfl⟩

theorem exists_alignGap_eq_error_iff : (∃ f, alignGap v a = .error f) ↔ a = 0#w := by
  rw [← exists_alignUp_eq_error_iff (v := v), alignGap_eq_map]
  cases alignUp v a with
  | error f => exact Iff.rfl
  | ok up => exact ⟨fun ⟨f, hf⟩ => (by cases hf), fun ⟨f, hf⟩ => (by cases hf)⟩

/-! ### Results -/

/-- What a word is rounded to, and the distance up. -/
structure Rounded (v a down up gap : BitVec w) : Prop where
  down_isGreatest : IsGreatest (multiplesUpTo v.toNat a.toNat) down.toNat
  dvd_up : a.toNat ∣ up.toNat
  le_up : v ≤ up ∨ up = 0#w
  gap_lt : gap < a
  add_gap : v + gap = up

theorem rounded_of_ne_zero (v : BitVec w) (ha : a ≠ 0#w) :
    Rounded v a (v / a * a) ((v + (a - 1#w)) / a * a) ((v + (a - 1#w)) / a * a - v) where
  down_isGreatest := by
    rw [toNat_udiv_mul]
    exact isGreatest_div_mul (toNat_pos_of_ne_zero ha)
  dvd_up := by
    rw [toNat_udiv_mul]
    exact Nat.dvd_mul_left _ _
  le_up := le_roundUp_or_eq_zero v ha
  gap_lt := roundUp_sub_self_lt v ha
  add_gap := by ring

/-- Rounding to a multiple of any alignment but zero gives a result, none of its products leaves the
word, and the results are multiples of the alignment: the greatest one up to the word, and one that is
not below the word unless it is zero. The distance to the latter is below the alignment. -/
theorem align_in_range (v a : BitVec w) :
    ((∃ f, alignDown v a = .error f) ↔ a = 0#w) ∧
      ((∃ f, alignUp v a = .error f) ↔ a = 0#w) ∧
      ((∃ f, alignGap v a = .error f) ↔ a = 0#w) ∧
      (a ≠ 0#w →
        (v / a).umulOverflow a = false ∧ ((v + (a - 1#w)) / a).umulOverflow a = false ∧
        ∃ down up gap, alignDown v a = .ok down ∧ alignUp v a = .ok up ∧
          alignGap v a = .ok gap ∧ Rounded v a down up gap) := by
  refine ⟨exists_alignDown_eq_error_iff, exists_alignUp_eq_error_iff, exists_alignGap_eq_error_iff,
    fun ha => ⟨umulOverflow_udiv v a, umulOverflow_udiv _ a, _, _, _, alignDown_of_ne_zero v ha,
      alignUp_of_ne_zero v ha, ?_, rounded_of_ne_zero v ha⟩⟩
  rw [alignGap_eq_map, alignUp_of_ne_zero v ha]
  rfl

/-- The greatest alignment, which is no power of two, one above the word: the sum wraps around. -/
theorem align_in_range_greatest :
    let v : BitVec 32 := 0xFFFFFFFE
    let a : BitVec 32 := 0xFFFFFFFF
    a ≠ 0#32 ∧ alignDown v a = .ok 0#32 ∧ alignUp v a = .ok 0#32 ∧ alignGap v a = .ok 2#32 ∧
      Rounded v a 0#32 0#32 2#32 := by
  intro v a
  have hne : a ≠ 0#32 := by decide
  obtain ⟨-, -, -, hresult⟩ := align_in_range v a
  obtain ⟨-, -, down, up, gap, hdown, hup, hgap, hrounded⟩ := hresult hne
  have hdown' : alignDown v a = .ok 0#32 := by decide +kernel
  have hup' : alignUp v a = .ok 0#32 := by decide +kernel
  have hgap' : alignGap v a = .ok 2#32 := by decide +kernel
  cases hdown.symm.trans hdown'
  cases hup.symm.trans hup'
  cases hgap.symm.trans hgap'
  exact ⟨hne, hdown, hup, hgap, hrounded⟩

end Endian
