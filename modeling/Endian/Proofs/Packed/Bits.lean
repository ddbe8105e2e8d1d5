import Endian.Packed
import Endian.Proofs.LastAnswer
import Mathlib.Data.List.Forall2

/-!
# The bits of a packed word

Every edit of a packed word writes some of its bits and leaves the others: `Edit.bit?` says which
bit it writes at a place of the decoded word, by the places of the bits alone.

`getLsbD_apply` is the law of one edit and `getLsbD_final` that of a sequence: each bit is the one
that the last edit over its place wrote, or else the first one. The two ways to write the 26-bit
field give the same bytes, so one can stand for the other in any sequence (`run_congr`).
-/

namespace Endian

/-! ### Bits of words -/

namespace Word

variable {n : Nat}

theorem getLsbD_byteMask (i : Nat) (hi : i < 8 * n) :
    (255#(8 * n)).getLsbD i = decide (i < 8) := by
  have hmask : Nat.testBit 255 i = decide (i < 8) := Nat.testBit_two_pow_sub_one 8 i
  rw [BitVec.getLsbD_ofNat, hmask, decide_eq_true hi, Bool.true_and]

theorem getLsbD_swapLow (w : Word n) {k i : Nat} (hk : k ≤ n) (hi : i < 8 * k) :
    (swapLow w k).getLsbD i = w.getLsbD (8 * (k - 1 - i / 8) + i % 8) := by
  induction k generalizing i with
  | zero => omega
  | succ k ih =>
    have hin : i < 8 * n := by omega
    rw [swapLow, BitVec.getLsbD_or, BitVec.getLsbD_and, BitVec.getLsbD_ushiftRight,
      BitVec.getLsbD_shiftLeft, getLsbD_byteMask i hin]
    by_cases h : i < 8
    · -- the lowest byte is the one that was added last
      have hplace : 8 * (k + 1 - 1 - i / 8) + i % 8 = 8 * k + i := by omega
      rw [hplace]
      simp [h]
    · have hplace : 8 * (k - 1 - (i - 8) / 8) + (i - 8) % 8 =
          8 * (k + 1 - 1 - i / 8) + i % 8 := by omega
      rw [ih (by omega) (by omega), hplace]
      simp [h, hin]

/-- Reversed bytes keep the order of the bits in each of them. -/
theorem getLsbD_swapBytes (w : Word n) {i : Nat} (hi : i < 8 * n) :
    w.swapBytes.getLsbD i = w.getLsbD (8 * (n - 1 - i / 8) + i % 8) :=
  getLsbD_swapLow w (Nat.le_refl n) hi

end Word

namespace Packed

/-! ### Fields -/

namespace Field

theorem getLsbD_mask (f : Field) (i : Nat) :
    f.mask.getLsbD i = (decide (i < 32) && decide (i < f.bits)) := by
  rw [mask, BitVec.getLsbD_setWidth, BitVec.getLsbD_allOnes]

/-- Reading takes out the bits at the places of the field. -/
theorem get_eq_extract (f : Field) (bs : Bytes 4) :
    f.get bs = ((Word.load .little bs).extractLsb' f.shift f.bits).setWidth 32 := by
  apply BitVec.eq_of_getLsbD_eq
  intro i hi
  rw [get, BitVec.getLsbD_and, BitVec.getLsbD_ushiftRight, getLsbD_mask, BitVec.getLsbD_setWidth,
    BitVec.getLsbD_extractLsb']
  rw [Bool.and_comm, Bool.and_assoc]

theorem getLsbD_put (f : Field) (v : BitVec 32) (bs : Bytes 4) {i : Nat} (hi : i < 32) :
    (Word.load .little (f.put v bs)).getLsbD i =
      if f.shift ≤ i ∧ i < f.shift + f.bits then v.getLsbD (i - f.shift)
      else (Word.load .little bs).getLsbD i := by
  rw [put, Word.load_store, BitVec.getLsbD_or, BitVec.getLsbD_and, BitVec.getLsbD_not,
    BitVec.getLsbD_shiftLeft, BitVec.getLsbD_shiftLeft, BitVec.getLsbD_and, getLsbD_mask]
  have hlow : i - f.shift < 32 := by omega
  by_cases h : f.shift ≤ i ∧ i < f.shift + f.bits
  · have hfield : i - f.shift < f.bits := by omega
    have hshift : ¬ i < f.shift := by omega
    simp [h, hi, hlow, hfield, hshift]
  · by_cases hshift : i < f.shift
    · simp [h, hi, hshift]
    · have hfield : ¬ i - f.shift < f.bits := by omega
      simp [h, hi, hshift, hfield]

/-- The image of the word can be edited without decoding it. -/
theorem putImm26_eq_put (v : BitVec 32) (bs : Bytes 4) : putImm26 v bs = Field.imm26.put v bs := by
  have hmask : Field.imm26.mask <<< Field.imm26.shift = Field.imm26.mask := BitVec.shiftLeft_zero _
  have hvalue : (v &&& Field.imm26.mask) <<< Field.imm26.shift = v &&& Field.imm26.mask :=
    BitVec.shiftLeft_zero _
  rw [put, hmask, hvalue]
  rfl

end Field

/-! ### Edits -/

namespace Edit

/-- The bit that an edit writes at a place of the decoded word, `none` if it leaves that place
alone. -/
def bit? (i : Nat) : Edit → Option Bool
  | field f v => if f.shift ≤ i ∧ i < f.shift + f.bits then some (v.getLsbD (i - f.shift)) else none
  | imm26 v => if i < 26 then some (v.getLsbD i) else none
  | word .little v => some (v.getLsbD i)
  | word .big v => some (v.getLsbD (8 * (3 - i / 8) + i % 8))

/-- The word after all of the edits. -/
def final (es : List Edit) (bs : Bytes 4) : Bytes 4 := es.foldl (fun bs e => e.apply bs) bs

/-- Equal edits, or the two ways to write the 26-bit field. -/
inductive Alike : Edit → Edit → Prop where
  | refl (e : Edit) : Alike e e
  | imm26 (v : BitVec 32) : Alike (.imm26 v) (.field .imm26 v)

theorem bit?_imm26 (i : Nat) (v : BitVec 32) : (imm26 v).bit? i = (field .imm26 v).bit? i := by
  simp [bit?, Field.imm26]

theorem Alike.apply_eq {e e' : Edit} (h : Alike e e') (bs : Bytes 4) :
    e'.apply bs = e.apply bs := by
  cases h with
  | refl => rfl
  | imm26 v => exact (Field.putImm26_eq_put v bs).symm

theorem getLsbD_apply (e : Edit) (bs : Bytes 4) {i : Nat} (hi : i < 32) :
    (Word.load .little (e.apply bs)).getLsbD i =
      (e.bit? i).getD ((Word.load .little bs).getLsbD i) := by
  have hfield : ∀ (f : Field) (v : BitVec 32), (Word.load .little (f.put v bs)).getLsbD i =
      ((field f v).bit? i).getD ((Word.load .little bs).getLsbD i) := by
    intro f v
    rw [f.getLsbD_put v bs hi, bit?]
    split <;> rfl
  cases e with
  | field f v => exact hfield f v
  | imm26 v =>
    rw [bit?_imm26, apply, Field.putImm26_eq_put]
    exact hfield .imm26 v
  | word o v =>
    cases o with
    | little =>
      rw [apply, Word.load_store]
      rfl
    | big =>
      have hswap : Word.load .little (Word.store (n := 4) .big v) = Word.swapBytes (n := 4) v :=
        Word.ofImage_image _
      rw [apply, hswap, Word.getLsbD_swapBytes _ hi]
      rfl

/-! ### Sequences -/

theorem getLsbD_final (es : List Edit) (bs : Bytes 4) {i : Nat} (hi : i < 32) :
    (Word.load .little (final es bs)).getLsbD i =
      (lastSome? (bit? i) es).getD ((Word.load .little bs).getLsbD i) :=
  view_foldl (fun bs => (Word.load .little bs).getLsbD i) (fun bs e => e.getLsbD_apply bs hi) es bs

theorem getElem?_run (es : List Edit) (bs : Bytes 4) {k : Nat} (hk : k < es.length) :
    (run es bs)[k]? = some (final (es.take (k + 1)) bs) := by
  induction es generalizing bs k with
  | nil => cases hk
  | cons e es ih =>
    cases k with
    | zero => rfl
    | succ k =>
      rw [run, List.getElem?_cons_succ, ih _ (Nat.lt_of_succ_lt_succ hk)]
      rfl

theorem run_congr {es es' : List Edit} (h : List.Forall₂ Alike es es') (bs : Bytes 4) :
    run es' bs = run es bs := by
  induction h generalizing bs with
  | nil => rfl
  | cons he _ ih => rw [run, run, he.apply_eq, ih]

/-- After every edit each bit of the decoded word is the one that the last edit over its place
wrote, or else the first one, and the three fields read the bits at their places. The two ways to
write the 26-bit field can stand for each other. -/
theorem last_edit_wins (es : List Edit) (bs : Bytes 4) :
    (∀ i < 32, (Word.load .little (final es bs)).getLsbD i =
        (lastSome? (bit? i) es).getD ((Word.load .little bs).getLsbD i)) ∧
      (∀ k < es.length, (run es bs)[k]? = some (final (es.take (k + 1)) bs)) ∧
      (∀ v : BitVec 32, ∀ i < 32,
        (word .big v).bit? i = some ((Word.swapBytes (n := 4) v).getLsbD i)) ∧
      (∀ w : Bytes 4,
        Field.imm26.get w = ((Word.load .little w).extractLsb' 0 26).setWidth 32 ∧
        Field.imm19.get w = ((Word.load .little w).extractLsb' 5 19).setWidth 32 ∧
        Field.imm14.get w = ((Word.load .little w).extractLsb' 5 14).setWidth 32) ∧
      ∀ es' : List Edit, List.Forall₂ Alike es es' → run es' bs = run es bs := by
  refine ⟨fun i hi => getLsbD_final es bs hi, fun k hk => getElem?_run es bs hk, ?_, ?_,
    fun es' h => run_congr h bs⟩
  · intro v i hi
    rw [Word.getLsbD_swapBytes (n := 4) v hi]
    rfl
  · intro w
    exact ⟨Field.get_eq_extract _ w, Field.get_eq_extract _ w, Field.get_eq_extract _ w⟩

/-- Values too wide for their fields, written over one another, below and above a whole word. -/
theorem last_edit_wins_overlap :
    let bs : Bytes 4 := #v[0xFF, 0xFF, 0xFF, 0xFF]
    let es : List Edit := [.field .imm14 0x14000, .imm26 0xFC123456, .word .big 0x01020304,
      .field .imm19 0xFFF80007]
    let es' : List Edit := es.set 1 (.field .imm26 0xFC123456)
    run es bs = [#v[0x1F, 0x00, 0xF8, 0xFF], #v[0x56, 0x34, 0x12, 0xFC], #v[1, 2, 3, 4],
      #v[0xE1, 0, 0, 4]] ∧
      lastSome? (bit? 26) es = some true ∧ (Word.load .little (final es bs)).getLsbD 26 = true ∧
      run es' bs = run es bs := by
  intro bs es es'
  have hwins := last_edit_wins es bs
  have hlast : lastSome? (bit? 26) es = some true := by decide
  refine ⟨by decide, hlast, ?_, hwins.2.2.2.2 es' ?_⟩
  · rw [hwins.1 26 (by decide), hlast]
    rfl
  · exact .cons (.refl _) (.cons (.imm26 _) (.cons (.refl _) (.cons (.refl _) .nil)))

end Edit

end Packed

end Endian
