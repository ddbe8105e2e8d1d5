import Endian.Proofs.Word.Rounding
import Mathlib.Data.BitVec
import Mathlib.Tactic.LinearCombination
import Mathlib.Tactic.Ring

/-!
# Rounding by masks

If the alignment is the power of two at place `k`, one less is a mask of the bits below that place
(`maskBelow`), and rounding clears these bits. `and_add_and_not` splits a word along a mask,
`roundDown_eq_mask` is rounding down, and `roundUp_eq_neg` says that rounding up is rounding down
seen from the other end of the word: it holds of every word, those included whose sum with the mask
wraps around.
-/

namespace Endian

variable {w j k : Nat} {v a : BitVec w}

/-! ### Masks -/

/-- A mask splits a word into two parts. -/
theorem and_add_and_not (v m : BitVec w) : (v &&& m) + (v &&& ~~~m) = v := by
  have hdisjoint : v &&& m &&& (v &&& ~~~m) = 0#w := by
    ext i hi
    simp only [BitVec.getElem_and, BitVec.getElem_not, BitVec.getElem_zero]
    cases v[i] <;> cases m[i] <;> rfl
  rw [BitVec.add_eq_or_of_and_eq_zero _ _ hdisjoint]
  ext i hi
  simp only [BitVec.getElem_or, BitVec.getElem_and, BitVec.getElem_not]
  cases v[i] <;> cases m[i] <;> rfl

/-- The word of the bits below place `k`. -/
def maskBelow (w k : Nat) : BitVec w := BitVec.twoPow w k - 1#w

theorem neg_twoPow (w k : Nat) : -BitVec.twoPow w k = ~~~maskBelow w k := by
  rw [maskBelow, BitVec.not_eq_neg_add]
  ring

theorem twoPow_ne_zero (hk : k < w) : BitVec.twoPow w k ≠ 0#w := by
  intro h
  have hnat := congrArg BitVec.toNat h
  have hpos := Nat.two_pow_pos k
  rw [BitVec.toNat_twoPow_of_lt hk, BitVec.toNat_zero] at hnat
  omega

theorem toNat_maskBelow (hk : k < w) : (maskBelow w k).toNat = 2 ^ k - 1 := by
  rw [maskBelow, toNat_sub_one (twoPow_ne_zero hk), BitVec.toNat_twoPow_of_lt hk]

theorem getLsbD_maskBelow (hk : k < w) (i : Nat) : (maskBelow w k).getLsbD i = decide (i < k) := by
  rw [← BitVec.testBit_toNat, toNat_maskBelow hk, Nat.testBit_two_pow_sub_one]

/-- A mask keeps the rest modulo the power of two. -/
theorem toNat_and_maskBelow (hk : k < w) (v : BitVec w) :
    (v &&& maskBelow w k).toNat = v.toNat % 2 ^ k := by
  rw [BitVec.toNat_and, toNat_maskBelow hk, Nat.and_two_pow_sub_one_eq_mod]

theorem and_maskBelow_lt (hk : k < w) (v : BitVec w) :
    v &&& maskBelow w k < BitVec.twoPow w k := by
  rw [BitVec.lt_def, toNat_and_maskBelow hk, BitVec.toNat_twoPow_of_lt hk]
  exact Nat.mod_lt _ (Nat.two_pow_pos k)

theorem sub_twoPow_and_maskBelow (hk : k < w) (v : BitVec w) :
    (v - BitVec.twoPow w k) &&& maskBelow w k = v &&& maskBelow w k := by
  apply BitVec.eq_of_toNat_eq
  obtain ⟨q, hq⟩ : 2 ^ k ∣ 2 ^ w := Nat.pow_dvd_pow 2 (by omega)
  have hcross : 2 ^ w - 2 ^ k = 2 ^ k * (q - 1) := by
    rw [hq, Nat.mul_sub_one]
  rw [toNat_and_maskBelow hk, toNat_and_maskBelow hk, BitVec.toNat_sub,
    BitVec.toNat_twoPow_of_lt hk, Nat.mod_mod_of_dvd _ ⟨q, hq⟩, hcross, Nat.mul_add_mod]

/-- The mask of the greater power clears what the mask of the smaller one clears. -/
theorem not_maskBelow_and_not_maskBelow (hjk : j ≤ k) (hk : k < w) :
    ~~~maskBelow w j &&& ~~~maskBelow w k = ~~~maskBelow w k := by
  apply BitVec.eq_of_getLsbD_eq
  intro i hi
  simp only [BitVec.getLsbD_and, BitVec.getLsbD_not, getLsbD_maskBelow hk,
    getLsbD_maskBelow (Nat.lt_of_le_of_lt hjk hk), hi, decide_true, Bool.true_and]
  by_cases hij : i < j
  · have hik : i < k := by omega
    simp [hij, hik]
  · simp [hij]

/-! ### A single bit -/

theorem hasSingleBit_iff : hasSingleBit a = true ↔ ∃ k < w, a = BitVec.twoPow w k := by
  simp only [hasSingleBit, Bool.and_eq_true, decide_eq_true_eq, beq_iff_eq]
  constructor
  · rintro ⟨hne, hand⟩
    have hpos := toNat_pos_of_ne_zero hne
    have hnat := congrArg BitVec.toNat hand
    rw [BitVec.toNat_and, toNat_sub_one hne, BitVec.toNat_zero] at hnat
    obtain ⟨k, hk⟩ := (Nat.and_sub_one_eq_zero_iff_isPowerOfTwo (by omega)).1 hnat
    have hkw : k < w := (Nat.pow_lt_pow_iff_right (by decide)).1 (hk ▸ a.isLt)
    exact ⟨k, hkw, BitVec.eq_of_toNat_eq (by rw [hk, BitVec.toNat_twoPow_of_lt hkw])⟩
  · rintro ⟨k, hk, rfl⟩
    have hand := toNat_and_maskBelow hk (BitVec.twoPow w k)
    rw [BitVec.toNat_twoPow_of_lt hk, Nat.mod_self] at hand
    exact ⟨twoPow_ne_zero hk, BitVec.eq_of_toNat_eq hand⟩

theorem toNat_eq_pow_iff (hk : k < w) : a.toNat = 2 ^ k ↔ a = BitVec.twoPow w k := by
  rw [← BitVec.toNat_twoPow_of_lt hk, BitVec.toNat_inj]

/-! ### Rounding -/

/-- Rounding down clears the bits below the power of two. -/
theorem roundDown_eq_mask (hk : k < w) (v : BitVec w) :
    v / BitVec.twoPow w k * BitVec.twoPow w k = v &&& ~~~maskBelow w k := by
  rw [BitVec.udiv_twoPow_eq_of_lt hk, BitVec.mul_twoPow_eq_shiftLeft]
  apply BitVec.eq_of_getLsbD_eq
  intro i hi
  simp only [BitVec.getLsbD_shiftLeft, BitVec.getLsbD_ushiftRight, BitVec.getLsbD_and,
    BitVec.getLsbD_not, getLsbD_maskBelow hk, hi, decide_true, Bool.true_and]
  by_cases hik : i < k
  · simp [hik]
  · have hplace : k + (i - k) = i := by omega
    simp [hik, hplace]

/-- The bits that adding the mask sets below the power of two are those that the distance to the
next multiple leaves unset. -/
theorem add_mask_and_mask (hk : k < w) (v : BitVec w) :
    ((v + maskBelow w k) &&& maskBelow w k) + (-v &&& maskBelow w k) = maskBelow w k := by
  have hflip : ~~~(v + maskBelow w k) = -v - BitVec.twoPow w k := by
    rw [BitVec.not_eq_neg_add, maskBelow]
    ring
  have hsplit := and_add_and_not (maskBelow w k) (v + maskBelow w k)
  rw [hflip, BitVec.and_comm, BitVec.and_comm _ (-v - _), sub_twoPow_and_maskBelow hk] at hsplit
  exact hsplit

/-- Rounding up adds the bits that are missing below the power of two. -/
theorem roundUp_eq_add (hk : k < w) (v : BitVec w) :
    (v + maskBelow w k) &&& ~~~maskBelow w k = v + (-v &&& maskBelow w k) := by
  have hsplit := and_add_and_not (v + maskBelow w k) (maskBelow w k)
  have hbelow := add_mask_and_mask hk v
  linear_combination hsplit - hbelow

/-- Rounding up is rounding down from the other end of the word. -/
theorem roundUp_eq_neg (hk : k < w) (v : BitVec w) :
    (v + maskBelow w k) &&& ~~~maskBelow w k = -(-v &&& ~~~maskBelow w k) := by
  have hsplit := and_add_and_not (-v) (maskBelow w k)
  rw [roundUp_eq_add hk]
  linear_combination hsplit

theorem alignDown_twoPow (hk : k < w) (v : BitVec w) :
    alignDown v (BitVec.twoPow w k) = .ok (v &&& ~~~maskBelow w k) := by
  rw [alignDown_of_ne_zero v (twoPow_ne_zero hk), roundDown_eq_mask hk]

theorem alignUp_twoPow (hk : k < w) (v : BitVec w) :
    alignUp v (BitVec.twoPow w k) = .ok ((v + maskBelow w k) &&& ~~~maskBelow w k) := by
  rw [alignUp_of_ne_zero v (twoPow_ne_zero hk), roundDown_eq_mask hk]
  rfl

theorem alignGap_twoPow (hk : k < w) (v : BitVec w) :
    alignGap v (BitVec.twoPow w k) = .ok (-v &&& maskBelow w k) := by
  rw [alignGap_eq_map, alignUp_twoPow hk, roundUp_eq_add hk]
  show Except.ok (v + (-v &&& maskBelow w k) - v) = _
  rw [BitVec.add_comm, BitVec.add_sub_cancel]

/-! ### Two roundings -/

theorem alignDown_alignDown (hjk : j ≤ k) (hk : k < w) (v : BitVec w) :
    (do alignDown (← alignDown v (BitVec.twoPow w j)) (BitVec.twoPow w k)) =
      alignDown v (BitVec.twoPow w k) := by
  rw [alignDown_twoPow (Nat.lt_of_le_of_lt hjk hk), alignDown_twoPow hk v]
  show alignDown (v &&& _) (BitVec.twoPow w k) = _
  rw [alignDown_twoPow hk, BitVec.and_assoc, not_maskBelow_and_not_maskBelow hjk hk]

theorem alignUp_alignUp (hjk : j ≤ k) (hk : k < w) (v : BitVec w) :
    (do alignUp (← alignUp v (BitVec.twoPow w j)) (BitVec.twoPow w k)) =
      alignUp v (BitVec.twoPow w k) := by
  have hj := Nat.lt_of_le_of_lt hjk hk
  rw [alignUp_twoPow hj, alignUp_twoPow hk v, roundUp_eq_neg hj, roundUp_eq_neg hk]
  show alignUp (-(-v &&& _)) (BitVec.twoPow w k) = _
  rw [alignUp_twoPow hk, roundUp_eq_neg hk, BitVec.neg_neg, BitVec.and_assoc,
    not_maskBelow_and_not_maskBelow hjk hk]

/-- The powers of two are the words of a single bit. To such an alignment a word is rounded by masks,
whether its sum with the mask fits or wraps around, and rounding to a smaller power of two before
makes no difference. -/
theorem align_eq_mask (v a : BitVec w) :
    (hasSingleBit a = true ↔ ∃ k < w, a.toNat = 2 ^ k) ∧
      (hasSingleBit a = true →
        alignDown v a = .ok (v &&& ~~~(a - 1#w)) ∧
        alignUp v a = .ok ((v + (a - 1#w)) &&& ~~~(a - 1#w)) ∧
        alignGap v a = .ok (-v &&& (a - 1#w)) ∧ -v &&& (a - 1#w) < a ∧
        ∀ b : BitVec w, hasSingleBit b = true → a ≤ b →
          (do alignUp (← alignUp v a) b) = alignUp v b ∧
          (do alignDown (← alignDown v a) b) = alignDown v b) := by
  constructor
  · rw [hasSingleBit_iff]
    exact exists_congr fun k => and_congr_right fun hk => (toNat_eq_pow_iff hk).symm
  · intro ha
    obtain ⟨k, hk, rfl⟩ := hasSingleBit_iff.1 ha
    refine ⟨alignDown_twoPow hk v, alignUp_twoPow hk v, alignGap_twoPow hk v,
      and_maskBelow_lt hk (-v), ?_⟩
    intro b hb hle
    obtain ⟨l, hl, rfl⟩ := hasSingleBit_iff.1 hb
    rw [BitVec.le_def, BitVec.toNat_twoPow_of_lt hk, BitVec.toNat_twoPow_of_lt hl] at hle
    have hkl : k ≤ l := (Nat.pow_le_pow_iff_right (by decide)).1 hle
    exact ⟨alignUp_alignUp hkl hl v, alignDown_alignDown hkl hl v⟩

/-- Close below the top of the word the next multiple of sixteen is the end of the word. -/
theorem align_eq_mask_top :
    let v : BitVec 32 := 0xFFFFFFF1
    hasSingleBit 16#32 = true ∧ hasSingleBit 4096#32 = true ∧ 16#32 ≤ 4096#32 ∧
      alignDown v 16#32 = .ok 0xFFFFFFF0 ∧ alignUp v 16#32 = .ok 0 ∧ alignGap v 16#32 = .ok 15 ∧
      (do alignDown (← alignDown v 16#32) 4096#32) = .ok 0xFFFFF000 := by
  intro v
  have hsmall : hasSingleBit 16#32 = true := by decide
  have hgreat : hasSingleBit 4096#32 = true := by decide
  have hle : 16#32 ≤ 4096#32 := by decide
  obtain ⟨hdown, hup, hgap, -, htwice⟩ := (align_eq_mask v 16#32).2 hsmall
  obtain ⟨hdown', -⟩ := (align_eq_mask v 4096#32).2 hgreat
  refine ⟨hsmall, hgreat, hle, ?_, ?_, ?_, ?_⟩
  · rw [hdown]
    decide
  · rw [hup]
    decide
  · rw [hgap]
    decide
  · rw [(htwice 4096#32 hgreat hle).2, hdown']
    decide

end Endian
