import Endian.Word.Align
import Mathlib.Order.Bounds.Defs

/-!
# Rounding to a multiple

Rounding up adds `a - 1` to a word before it divides by the alignment `a`. As long as this sum fits
into the word, the result is the least multiple of `a` that is not below the word
(`isLeast_roundUp`). A sum that wraps around is smaller than `a`, so that the quotient collapses to
zero, even where the multiple itself fits. `alignUp_eq_least_iff` says when the multiple is found.
-/

namespace Endian

/-! ### Numbers -/

/-- The multiple of `a` that is reached from `v` by adding `a - 1` and rounding down. -/
def roundUp (v a : Nat) : Nat := (v + (a - 1)) / a * a

/-- The multiples of `a` that are not below `v`. -/
def multiplesFrom (v a : Nat) : Set Nat := {k | a ∣ k ∧ v ≤ k}

section Numbers

variable {v a : Nat}

theorem isLeast_roundUp (ha : 0 < a) : IsLeast (multiplesFrom v a) (roundUp v a) := by
  have hrest := Nat.mod_lt (v + (a - 1)) ha
  have hsplit : roundUp v a + (v + (a - 1)) % a = v + (a - 1) := Nat.div_add_mod' _ _
  refine ⟨⟨Nat.dvd_mul_left a _, by omega⟩, ?_⟩
  rintro k ⟨⟨q, rfl⟩, hk⟩
  have hlt : v + (a - 1) < a * (q + 1) := by
    rw [Nat.mul_succ]
    omega
  have hq : (v + (a - 1)) / a ≤ q := Nat.le_of_lt_succ (Nat.div_lt_of_lt_mul hlt)
  rw [roundUp, Nat.mul_comm]
  exact Nat.mul_le_mul_left a hq

end Numbers

/-! ### Words -/

section Words

variable {w : Nat} {v a : BitVec w}

theorem toNat_pos_of_ne_zero (ha : a ≠ 0#w) : 0 < a.toNat := by
  have hne : a.toNat ≠ 0 := fun h => ha (BitVec.eq_of_toNat_eq h)
  omega

theorem toNat_one_of_ne_zero (ha : a ≠ 0#w) : (1#w).toNat = 1 := by
  have hpos := toNat_pos_of_ne_zero ha
  have hlt := a.isLt
  rw [BitVec.toNat_ofNat, Nat.mod_eq_of_lt (by omega)]

theorem toNat_sub_one (ha : a ≠ 0#w) : (a - 1#w).toNat = a.toNat - 1 := by
  have hpos := toNat_pos_of_ne_zero ha
  have hone := toNat_one_of_ne_zero ha
  have hle : 1#w ≤ a := by
    rw [BitVec.le_def]
    omega
  rw [BitVec.toNat_sub_of_le hle, hone]

/-- A quotient times its divisor is at most the word that was divided. -/
theorem umulOverflow_udiv (v a : BitVec w) : (v / a).umulOverflow a = false := by
  have hle := Nat.div_mul_le_self v.toNat a.toNat
  have hlt := v.isLt
  apply decide_eq_false
  rw [BitVec.toNat_udiv]
  omega

theorem toNat_udiv_mul (v a : BitVec w) : (v / a * a).toNat = v.toNat / a.toNat * a.toNat := by
  have hfits : ¬ (v / a).umulOverflow a = true := by
    rw [umulOverflow_udiv]
    decide
  rw [BitVec.toNat_mul_of_not_umulOverflow hfits, BitVec.toNat_udiv]

/-- No step of rounding down is a fault, except for the alignment zero. -/
theorem alignDown_of_ne_zero (v : BitVec w) (ha : a ≠ 0#w) : alignDown v a = .ok (v / a * a) := by
  unfold alignDown
  rw [checkedDiv, if_neg ha]
  show checkedMul (v / a) a = _
  rw [checkedMul, if_neg (by rw [umulOverflow_udiv]; decide)]

/-- No step of rounding up is a fault, except for the alignment zero. -/
theorem alignUp_of_ne_zero (v : BitVec w) (ha : a ≠ 0#w) :
    alignUp v a = .ok ((v + (a - 1#w)) / a * a) := by
  have hle : (1#w).toNat ≤ a.toNat := by
    rw [toNat_one_of_ne_zero ha]
    exact toNat_pos_of_ne_zero ha
  rw [alignUp, checkedSub, if_pos hle]
  show (do let q ← checkedDiv (v + (a - 1#w)) a; return q * a) = _
  rw [checkedDiv, if_neg ha]
  rfl

theorem alignGap_eq_map (v a : BitVec w) : alignGap v a = (alignUp v a).map (· - v) := by
  unfold alignGap
  cases alignUp v a <;> rfl

theorem toNat_roundUp_of_fits (ha : a ≠ 0#w) (h : v.uaddOverflow (a - 1#w) = false) :
    ((v + (a - 1#w)) / a * a).toNat = roundUp v.toNat a.toNat := by
  have hsum := BitVec.toNat_add_of_lt (Nat.not_le.1 (of_decide_eq_false h))
  rw [toNat_sub_one ha] at hsum
  rw [toNat_udiv_mul, hsum, roundUp]

/-- A sum that wraps around is smaller than the alignment. -/
theorem roundUp_of_overflow (ha : a ≠ 0#w) (h : v.uaddOverflow (a - 1#w) = true) :
    (v + (a - 1#w)) / a * a = 0#w := by
  have hover := of_decide_eq_true h
  have hpos := toNat_pos_of_ne_zero ha
  have hsum := BitVec.toNat_add v (a - 1#w)
  have hv := v.isLt
  have hlt := a.isLt
  rw [toNat_sub_one ha] at hover hsum
  rw [Nat.mod_eq_sub_mod hover, Nat.mod_eq_of_lt (by omega)] at hsum
  have hquot : (v + (a - 1#w)) / a = 0#w := by
    apply BitVec.eq_of_toNat_eq
    rw [BitVec.toNat_udiv, Nat.div_eq_of_lt (by omega)]
    rfl
  rw [hquot, BitVec.zero_mul]

theorem toNat_pos_of_overflow (h : v.uaddOverflow (a - 1#w) = true) : 0 < v.toNat := by
  have hover := of_decide_eq_true h
  have hlt := (a - 1#w).isLt
  omega

theorem alignUp_of_overflow (ha : a ≠ 0#w) (h : v.uaddOverflow (a - 1#w) = true) :
    alignUp v a = .ok 0#w := by
  rw [alignUp_of_ne_zero v ha, roundUp_of_overflow ha h]

/-- What rounding up gives is the least multiple exactly if the sum fits. -/
theorem alignUp_eq_ok_iff {m : BitVec w} (ha : a ≠ 0#w)
    (hm : IsLeast (multiplesFrom v.toNat a.toNat) m.toNat) :
    alignUp v a = .ok m ↔ v.uaddOverflow (a - 1#w) = false := by
  cases h : v.uaddOverflow (a - 1#w) with
  | true =>
    have hv := toNat_pos_of_overflow h
    have hle : v.toNat ≤ m.toNat := hm.1.2
    rw [alignUp_of_overflow ha h]
    refine ⟨fun heq => ?_, fun heq => by cases heq⟩
    cases heq
    exact absurd hle (Nat.not_le.2 hv)
  | false =>
    have hleast := isLeast_roundUp (v := v.toNat) (toNat_pos_of_ne_zero ha)
    rw [alignUp_of_ne_zero v ha]
    refine ⟨fun _ => rfl, fun _ => congrArg Except.ok (BitVec.eq_of_toNat_eq ?_)⟩
    rw [toNat_roundUp_of_fits ha h]
    exact Nat.le_antisymm (hleast.2 hm.1) (hm.2 hleast.1)

theorem alignGap_eq_ok_iff {m : BitVec w} (v a : BitVec w) :
    alignGap v a = .ok (m - v) ↔ alignUp v a = .ok m := by
  rw [alignGap_eq_map]
  cases alignUp v a with
  | error e => exact ⟨fun h => (by cases h), fun h => (by cases h)⟩
  | ok r =>
    constructor
    · intro h
      have hsub : r - v = m - v := Except.ok.inj h
      have hadd := congrArg (· + v) hsub
      simp only [BitVec.sub_add_cancel] at hadd
      rw [hadd]
    · intro h
      rw [Except.ok.inj h]
      rfl

/-- A word is the least multiple from itself on if it is a multiple. -/
theorem isLeast_self (h : a.toNat ∣ v.toNat) : IsLeast (multiplesFrom v.toNat a.toNat) v.toNat :=
  ⟨⟨h, Nat.le_refl _⟩, fun _ hk => hk.2⟩

/-- Where the least multiple fits into the word, rounding up finds it exactly if adding `a - 1` does
not wrap around, and gives zero otherwise; the distance is right in the same cases. The result is
kept by rounding once more if adding `a - 1` to it does not wrap around either. -/
theorem alignUp_eq_least_iff {m : BitVec w} (ha : a ≠ 0#w)
    (hm : IsLeast (multiplesFrom v.toNat a.toNat) m.toNat) :
    (alignUp v a = .ok m ↔ v.uaddOverflow (a - 1#w) = false) ∧
      (alignGap v a = .ok (m - v) ↔ v.uaddOverflow (a - 1#w) = false) ∧
      (alignGap v a = .ok 0#w ↔ v.uaddOverflow (a - 1#w) = false ∧ a.toNat ∣ v.toNat) ∧
      (v.uaddOverflow (a - 1#w) = true → alignUp v a = .ok 0#w) ∧
      (alignUp m a = .ok m ↔ m.uaddOverflow (a - 1#w) = false) := by
  have hup := alignUp_eq_ok_iff ha hm
  have hzero := alignGap_eq_ok_iff (m := v) v a
  rw [BitVec.sub_self] at hzero
  refine ⟨hup, (alignGap_eq_ok_iff v a).trans hup, ?_, alignUp_of_overflow ha,
    alignUp_eq_ok_iff ha (isLeast_self hm.1.1)⟩
  rw [hzero]
  constructor
  · intro h
    cases hsum : v.uaddOverflow (a - 1#w) with
    | true =>
      have hv := toNat_pos_of_overflow hsum
      rw [alignUp_of_overflow ha hsum] at h
      cases h
      exact absurd hv (Nat.lt_irrefl 0)
    | false =>
      have heq : m = v := Except.ok.inj ((hup.2 hsum).symm.trans h)
      exact ⟨rfl, heq ▸ hm.1.1⟩
  · rintro ⟨hsum, hdvd⟩
    exact (alignUp_eq_ok_iff ha (isLeast_self hdvd)).2 hsum

/-- Close below the top of the word a multiple of three is still found, but it is not kept. -/
theorem alignUp_eq_least_iff_top :
    let v : BitVec 32 := 0xFFFFFFFD
    let m : BitVec 32 := 0xFFFFFFFF
    alignUp v 3#32 = .ok m ∧ alignGap v 3#32 = .ok 2#32 ∧ alignUp m 3#32 ≠ .ok m := by
  intro v m
  have hm : IsLeast (multiplesFrom v.toNat (3#32).toNat) m.toNat := by
    refine ⟨⟨⟨1431655765, rfl⟩, by decide +kernel⟩, ?_⟩
    rintro k ⟨⟨q, rfl⟩, hk⟩
    have hv : 4294967293 ≤ 3 * q := hk
    show 4294967295 ≤ 3 * q
    omega
  have hlaw := alignUp_eq_least_iff (by decide) hm
  have hfits : v.uaddOverflow (3#32 - 1#32) = false := by decide +kernel
  have hwraps : m.uaddOverflow (3#32 - 1#32) = true := by decide +kernel
  have hgap : m - v = 2#32 := by decide +kernel
  refine ⟨hlaw.1.2 hfits, ?_, fun h => ?_⟩
  · rw [← hgap]
    exact hlaw.2.1.2 hfits
  · rw [hlaw.2.2.2.2.1 h] at hwraps
    cases hwraps

/-- The greatest number of 32 bits is a multiple of three. Rounding it up to one gives zero, since
the sum wraps around. -/
theorem alignUp_misses_multiple :
    let v : BitVec 32 := 0xFFFFFFFF
    IsLeast (multiplesFrom v.toNat 3) v.toNat ∧ alignUp v 3#32 = .ok 0#32 ∧
      alignUp v 3#32 ≠ .ok v ∧ alignGap v 3#32 = .ok 1#32 := by
  intro v
  have hdvd : (3#32).toNat ∣ v.toNat := ⟨1431655765, rfl⟩
  have hzero : alignUp v 3#32 = .ok 0#32 := alignUp_of_overflow (by decide) (by decide +kernel)
  refine ⟨isLeast_self hdvd, hzero, ?_, ?_⟩
  · rw [hzero]
    exact fun h => absurd (Except.ok.inj h) (by decide)
  · have hgap : 0#32 - v = 1#32 := by decide +kernel
    rw [alignGap_eq_map, hzero, Except.map, hgap]

end Words

end Endian
