import Endian.Proofs.Word.Number
import Endian.Transfer

/-!
# Transfers agree

A word that is put together byte by byte is the one that the host sees in the memory image, and the
bytes taken out of a word one by one are its image. For the loops this is an invariant of the
rounds: after `k` of them the word has the number of the first `k` bytes (`toNat_gather`), and the
first `k` bytes are those of the image (`getElem_scatter`).

Putting a word into an order inside a wider register is doing so in the word itself (`convert_eq`),
hence every way to load or store is the one of the word (`load_eq`, `store_eq`).
-/

namespace Endian

variable {n : Nat}

@[simp] theorem Bytes.overwrite_eq (dest src : Bytes n) : Bytes.overwrite dest src = src := by
  apply Vector.ext
  intro i hi
  rw [Bytes.overwrite, Vector.getElem_zipWith]

/-! ### Bytes of a register -/

namespace Register

/-- A byte of a register is the digit at its place. -/
theorem byteAt_eq {r : Nat} (hr : 8 ≤ r) (v : BitVec r) (i : Nat) :
    byteAt v (8 * i) = UInt8.ofNat (v.toNat / digitSpan i) := by
  have hspan : 2 ^ (8 * i) = digitSpan i := Nat.pow_mul 2 8 i
  have h255 : 255 < 2 ^ r := Nat.lt_of_lt_of_le (by decide) (Nat.pow_le_pow_right (by decide) hr)
  apply UInt8.toNat_inj.mp
  rw [byteAt, UInt8.toNat_ofBitVec, BitVec.toNat_setWidth, BitVec.toNat_and,
    BitVec.toNat_ushiftRight, BitVec.toNat_ofNat, Nat.mod_eq_of_lt h255, Nat.shiftRight_eq_div_pow,
    hspan, Nat.and_two_pow_sub_one_eq_mod _ 8, Nat.mod_mod, UInt8.toNat_ofNat']

end Register

/-! ### A byte at a place -/

namespace Word

variable (bs : Bytes n) (w : Word n) {k : Nat}

theorem toNat_place (hk : k < n) (b : UInt8) :
    (b.toBitVec.setWidth (8 * n) <<< (8 * k) : Word n).toNat = digitSpan k * b.toNat := by
  have hspan : 2 ^ (8 * k) = digitSpan k := Nat.pow_mul 2 8 k
  have hwhole : 2 ^ (8 * n) = digitSpan n := Nat.pow_mul 2 8 n
  have hnext : 256 * digitSpan k ≤ digitSpan n := digitSpan_succ k ▸ digitSpan_le hk
  have hb : b.toNat < 256 := b.toNat_lt
  have hlt : digitSpan k * b.toNat < digitSpan n := by
    have hle : digitSpan k * b.toNat ≤ digitSpan k * 255 := Nat.mul_le_mul_left _ (by omega)
    have hpos := digitSpan_pos k
    omega
  rw [BitVec.toNat_shiftLeft, BitVec.toNat_setWidth_of_le (by omega), Nat.shiftLeft_eq, hspan,
    hwhole, Nat.mul_comm, UInt8.toNat_toBitVec, Nat.mod_eq_of_lt hlt]

/-- Below a place and from it on there is no bit in common. -/
theorem or_eq_add {x : Nat} (hx : x < digitSpan k) (y : Nat) :
    x ||| digitSpan k * y = x + digitSpan k * y := by
  have hspan : digitSpan k = 2 ^ (8 * k) := (Nat.pow_mul 2 8 k).symm
  have hshift := Nat.shiftLeft_add_eq_or_of_lt (hspan ▸ hx) y
  rw [Nat.shiftLeft_eq, ← hspan, Nat.mul_comm y] at hshift
  rw [Nat.or_comm, ← hshift, Nat.add_comm]

/-! ### Putting a word together -/

theorem toNat_gather (hk : k ≤ n) : (gather bs k hk).toNat = littleValue (bs.toList.take k) := by
  induction k with
  | zero => rfl
  | succ k ih =>
    have hlen : k < bs.toList.length := by rwa [Vector.length_toList]
    have hlt : littleValue (bs.toList.take k) < digitSpan k := by
      have h := littleValue_lt (bs.toList.take k)
      rwa [List.length_take_of_le (Nat.le_of_lt hlen)] at h
    rw [gather, BitVec.toNat_or, ih, toNat_place hk, or_eq_add hlt,
      List.take_succ_eq_append_getElem hlen, littleValue_append,
      List.length_take_of_le (Nat.le_of_lt hlen), Vector.getElem_toList]
    rfl

theorem toNat_composeFrom (l : List UInt8) (h : k + l.length ≤ n) :
    (composeFrom n l (8 * k)).toNat = digitSpan k * littleValue l := by
  induction l generalizing k with
  | nil => rfl
  | cons b l ih =>
    rw [List.length_cons] at h
    have hb : digitSpan k * b.toNat < digitSpan (k + 1) := by
      rw [digitSpan_succ, Nat.mul_comm 256]
      exact Nat.mul_lt_mul_of_pos_left b.toNat_lt (digitSpan_pos k)
    have hnext : 8 * k + 8 = 8 * (k + 1) := rfl
    rw [composeFrom, BitVec.toNat_or, toNat_place (by omega), hnext, ih (by omega), or_eq_add hb,
      littleValue, digitSpan_succ, Nat.mul_add, Nat.mul_left_comm, Nat.mul_assoc]

theorem gather_eq_ofImage : gather bs n (Nat.le_refl n) = ofImage bs := by
  apply BitVec.eq_of_toNat_eq
  rw [toNat_gather, toNat_ofImage, List.take_of_length_le (by simp)]

theorem composeFrom_eq_ofImage : composeFrom n bs.toList 0 = ofImage bs := by
  apply BitVec.eq_of_toNat_eq
  have h := toNat_composeFrom (n := n) (k := 0) bs.toList (by simp)
  rw [Nat.mul_zero, digitSpan_zero, Nat.one_mul] at h
  rw [h, toNat_ofImage]

/-- Shifts put together the word that the memory image has. -/
theorem compose_eq_load (o : ByteOrder) : compose o bs = load o bs := by
  rw [compose, composeFrom_eq_ofImage, load]

/-! ### Taking a word apart -/

theorem getElem_image {i : Nat} (hi : i < n) :
    w.image[i] = UInt8.ofNat (w.toNat / digitSpan i) :=
  getElem_littleDigits n w.toNat i (by rwa [length_littleDigits])

theorem getElem_scatter (hk : k ≤ n) {i : Nat} (hi : i < n) :
    (scatter w k hk)[i] = if i < k then w.image[i] else 0 := by
  induction k with
  | zero => rw [scatter, Vector.getElem_replicate, if_neg (Nat.not_lt_zero i)]
  | succ k ih =>
    rw [scatter, Vector.getElem_set]
    by_cases h : k = i
    · subst h
      rw [if_pos rfl, if_pos (Nat.lt_succ_self k), getElem_image,
        Register.byteAt_eq (by omega)]
    · -- the other places are as the round before left them
      have hiff : i < k + 1 ↔ i < k := by omega
      rw [if_neg h, ih]
      simp only [hiff]

theorem scatter_eq_image : scatter w n (Nat.le_refl n) = w.image := by
  apply Vector.ext
  intro i hi
  rw [getElem_scatter w (Nat.le_refl n) hi, if_pos hi]

end Word

/-! ### Orders -/

namespace Register

theorem le_bits (n : Nat) : 8 * n ≤ bits n := Nat.le_max_right _ _

/-- A word is the same after it was in its register. -/
@[simp] theorem setWidth_setWidth_bits (w : Word n) :
    (w.setWidth (bits n)).setWidth (8 * n) = w := by
  rw [BitVec.setWidth_setWidth_of_le _ (le_bits n), BitVec.setWidth_eq]

/-- Only the word itself is put into its order, not the register around it. -/
theorem convert_eq (o : ByteOrder) (w : Word n) : convert o w = w.toOrder o := by
  unfold convert toOrder Word.toOrder
  split
  · rw [keepLow, setWidth_setWidth_bits, setWidth_setWidth_bits]
  · rw [swapLow, setWidth_setWidth_bits, setWidth_setWidth_bits]

end Register

namespace Transfer

variable (m : Transfer) (o : ByteOrder) (bs dest : Bytes n) (w : Word n)

theorem loadHost_eq : m.loadHost bs = Word.ofImage bs := by
  cases m with
  | whole => rfl
  | shifts => exact Word.compose_eq_load bs .host
  | rounds => exact Word.gather_eq_ofImage bs

theorem storeHost_eq : m.storeHost w dest = w.image := by
  cases m with
  | whole => exact Bytes.overwrite_eq dest w.image
  | shifts => exact Word.split_eq_store .host w
  | rounds => exact Word.scatter_eq_image w

theorem load_eq : m.load o bs = Word.load o bs := by
  rw [load, loadHost_eq, Register.convert_eq, Word.load]

theorem store_eq : m.store o w dest = Word.store o w := by
  rw [store, storeHost_eq, Register.convert_eq, Word.store]

end Transfer

/-- All ways to move a word load the same word and store the same bytes, whatever the destination
held, for the host's own words and in both orders; the loops are the memory image. -/
theorem transfers_agree (m m' : Transfer) (bs dest dest' : Bytes n) (w : Word n) :
    (m.loadHost bs = m'.loadHost bs ∧ m.storeHost w dest = m'.storeHost w dest') ∧
      (∀ o, m.load o bs = m'.load o bs ∧ m.store o w dest = m'.store o w dest') ∧
      Transfer.rounds.loadHost bs = Word.ofImage bs ∧
      Transfer.rounds.storeHost w dest = w.image := by
  refine ⟨⟨?_, ?_⟩, fun o => ⟨?_, ?_⟩, ?_, ?_⟩
  · rw [m.loadHost_eq, m'.loadHost_eq]
  · rw [m.storeHost_eq, m'.storeHost_eq]
  · rw [m.load_eq, m'.load_eq]
  · rw [m.store_eq, m'.store_eq]
  · exact Transfer.rounds.loadHost_eq bs
  · exact Transfer.rounds.storeHost_eq dest w

end Endian
