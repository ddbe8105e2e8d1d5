import Endian.Proofs.Record.Number
import Endian.Tagged.Arith
import Mathlib.Data.UInt

/-!
# The order of records

Comparing two records by their numbers is comparing their bytes one after another, from the most
significant byte down: `ByteOrder.descending` puts the bytes into that sequence, and for signed
numbers `flipTop` exchanges the two halves of the first byte. The comparators are total orders in
which only identical records are equal. Tagged integers compare as the records of their bytes.
-/

namespace Endian

/-! ### Numbers and their leading bytes -/

theorem compare_add_right (x y c : Int) : compare (x + c) (y + c) = compare x y := by
  simp only [Ord.compare, compareOfLessAndEq, Int.add_lt_add_iff_right, Int.add_left_inj]

/-- The leading part decides unless it is equal. -/
theorem compare_leading {s x y : Nat} (hx : x < s) (hy : y < s) (a b : Nat) :
    compare (a * s + x) (b * s + y) = (compare a b).then (compare x y) := by
  rcases Nat.lt_trichotomy a b with h | rfl | h
  · have hle : (a + 1) * s ≤ b * s := Nat.mul_le_mul_right s h
    have hlt : a * s + x < b * s + y := by
      rw [Nat.succ_mul] at hle
      omega
    rw [Nat.compare_eq_lt.2 h, Nat.compare_eq_lt.2 hlt]
    rfl
  · rw [Nat.compare_eq_eq.2 rfl, Ordering.eq_then]
    simp only [Ord.compare, compareOfLessAndEq, Nat.add_lt_add_iff_left, Nat.add_left_cancel_iff]
  · have hle : (b + 1) * s ≤ a * s := Nat.mul_le_mul_right s h
    have hgt : b * s + y < a * s + x := by
      rw [Nat.succ_mul] at hle
      omega
    rw [Nat.compare_eq_gt.2 h, Nat.compare_eq_gt.2 hgt]
    rfl

/-- The bytes with the top bit of the first one flipped. -/
def flipTop : List UInt8 → List UInt8
  | [] => []
  | b :: bs => (b ^^^ 0x80) :: bs

@[simp] theorem length_flipTop (bs : List UInt8) : (flipTop bs).length = bs.length := by
  cases bs <;> rfl

theorem toNat_flip (b : UInt8) :
    (b ^^^ 0x80).toNat = if b.toNat < 128 then b.toNat + 128 else b.toNat - 128 := by
  have hflip : ∀ x < 256, x ^^^ 128 = if x < 128 then x + 128 else x - 128 := by decide +kernel
  rw [UInt8.toNat_xor]
  exact hflip b.toNat b.toNat_lt

namespace ByteOrder

/-- The bytes from the most significant one down. -/
def descending (o : ByteOrder) (bs : List UInt8) : List UInt8 :=
  match o with
  | .big => bs
  | .little => bs.reverse

theorem length_descending (o : ByteOrder) (bs : List UInt8) :
    (o.descending bs).length = bs.length := by
  cases o <;> simp [descending]

theorem number_descending (o : ByteOrder) (bs : List UInt8) :
    big.number (o.descending bs) = o.number bs := by
  cases o <;> simp [descending, number]

theorem number_big_cons (b : UInt8) (bs : List UInt8) :
    big.number (b :: bs) = b.toNat * digitSpan bs.length + big.number bs := by
  simp only [number, List.reverse_cons, littleValue_append, List.length_reverse, littleValue]
  rw [Nat.mul_zero, Nat.add_zero, Nat.mul_comm, Nat.add_comm]

theorem number_inj {o : ByteOrder} {as bs : List UInt8} (h : as.length = bs.length) :
    o.number as = o.number bs ↔ as = bs := by
  refine ⟨fun heq => ?_, fun heq => heq ▸ rfl⟩
  rw [← o.digits_number as, heq, h, o.digits_number]

/-- The first byte that differs decides. -/
theorem compare_number_big {as bs : List UInt8} (h : as.length = bs.length) :
    compare (big.number as) (big.number bs) = compare as bs := by
  induction as generalizing bs with
  | nil =>
    cases bs with
    | nil => rfl
    | cons b bs => cases h
  | cons a as ih =>
    cases bs with
    | nil => cases h
    | cons b bs =>
      have hlen : as.length = bs.length := Nat.succ.inj h
      have hb : big.number bs < digitSpan as.length := hlen ▸ big.number_lt bs
      rw [number_big_cons, number_big_cons, ← hlen, compare_leading (big.number_lt as) hb,
        ih hlen, List.compare_cons_cons, UInt8.compare_eq_toNat_compare_toNat]

/-- Flipping the top bit moves the signed numbers up to the unsigned ones. -/
theorem number_flipTop (b : UInt8) (bs : List UInt8) :
    ((big.number (flipTop (b :: bs)) : Nat) : Int) =
      signedValue (bs.length + 1) (big.number (b :: bs)) + 128 * digitSpan bs.length := by
  have hb := b.toNat_lt
  have hrest := big.number_lt bs
  rw [flipTop, number_big_cons, number_big_cons, toNat_flip, signedValue, digitSpan_succ]
  by_cases htop : b.toNat < 128
  · have hle : b.toNat * digitSpan bs.length ≤ 127 * digitSpan bs.length :=
      Nat.mul_le_mul_right _ (by omega)
    rw [if_pos htop, if_pos (by omega), Nat.add_mul]
    omega
  · have hle : 128 * digitSpan bs.length ≤ b.toNat * digitSpan bs.length :=
      Nat.mul_le_mul_right _ (by omega)
    rw [if_neg htop, if_neg (by omega), Nat.sub_mul]
    omega

theorem compare_signedValue_big {as bs : List UInt8} (h : as.length = bs.length) :
    compare (signedValue as.length (big.number as)) (signedValue bs.length (big.number bs)) =
      compare (flipTop as) (flipTop bs) := by
  have hflip : (flipTop as).length = (flipTop bs).length := by simpa using h
  rw [← compare_number_big hflip, ← compare_natCast]
  cases as with
  | nil =>
    cases bs with
    | nil => rfl
    | cons b bs => cases h
  | cons a as =>
    cases bs with
    | nil => cases h
    | cons b bs =>
      have hlen : as.length = bs.length := Nat.succ.inj h
      rw [number_flipTop, number_flipTop, List.length_cons, List.length_cons, hlen,
        compare_add_right]

end ByteOrder

theorem signedValue_inj {n x y : Nat} (hx : x < digitSpan n) (hy : y < digitSpan n) :
    signedValue n x = signedValue n y ↔ x = y := by
  unfold signedValue
  split <;> split <;> omega

/-! ### Comparators -/

namespace Width

variable {k : Width} {o : ByteOrder}

theorem length_descending_toList (o : ByteOrder) (a : Bytes k.size) :
    (o.descending a.toList).length = k.size := by
  rw [o.length_descending, Vector.length_toList]

theorem compare_eq_descending (a b : Bytes k.size) :
    k.compare o a b = Ord.compare (o.descending a.toList) (o.descending b.toList) := by
  have hlen := (length_descending_toList o a).trans (length_descending_toList o b).symm
  rw [compare_eq_number, ← o.number_descending a.toList, ← o.number_descending b.toList,
    ByteOrder.compare_number_big hlen]

theorem compareSigned_eq_descending (a b : Bytes k.size) :
    k.compareSigned o a b =
      Ord.compare (flipTop (o.descending a.toList)) (flipTop (o.descending b.toList)) := by
  have ha := length_descending_toList o a
  have hb := length_descending_toList o b
  have hsigned := ByteOrder.compare_signedValue_big (ha.trans hb.symm)
  rw [ha, hb, o.number_descending, o.number_descending] at hsigned
  rw [compareSigned_eq_number, hsigned]

theorem number_toList_inj {a b : Bytes k.size} : o.number a.toList = o.number b.toList ↔ a = b := by
  rw [ByteOrder.number_inj (by simp), Vector.toList_inj]

instance : Std.TransCmp (k.compare o) :=
  inferInstanceAs (Std.TransCmp (compareOn fun a => (k.get o a).toNat))

instance : Std.LawfulEqCmp (k.compare o) where
  compare_self {a} := by
    rw [compare_eq_number]
    exact Nat.compare_eq_eq.2 rfl
  eq_of_compare {a b} h := by
    rw [compare_eq_number, Nat.compare_eq_eq, number_toList_inj] at h
    exact h

instance : Std.TransCmp (k.compareSigned o) :=
  inferInstanceAs (Std.TransCmp (compareOn fun a => k.getSigned o a))

instance : Std.LawfulEqCmp (k.compareSigned o) where
  compare_self {a} := by
    rw [compareSigned_eq_number]
    exact Int.compare_eq_eq.2 rfl
  eq_of_compare {a b} h := by
    have hlt : ∀ c : Bytes k.size, o.number c.toList < digitSpan k.size := fun c => by
      simpa using o.number_lt c.toList
    rw [compareSigned_eq_number, Int.compare_eq_eq, signedValue_inj (hlt a) (hlt b),
      number_toList_inj] at h
    exact h

end Width

/-! ### Tagged integers -/

namespace Tagged

variable {o : ByteOrder} {n : Nat}

theorem beq_eq_beq_bytes (s t : Tagged o n) : (s == t) = (s.bytes == t.bytes) := by
  rw [Bool.eq_iff_iff, beq_iff_eq, beq_iff_eq]
  cases s
  cases t
  rw [mk.injEq]

theorem beq_eq_beq_get (s t : Tagged o n) : (s.get == t.get) = (s == t) := by
  rw [Bool.eq_iff_iff, beq_iff_eq, beq_iff_eq, get_inj]

theorem beq_eq_compare (s t : Tagged o n) : (s == t) = (Ord.compare s t == .eq) := by
  rw [Bool.eq_iff_iff, beq_iff_eq, beq_iff_eq, ← get_inj, ← BitVec.toNat_inj]
  exact Nat.compare_eq_eq.symm

end Tagged

/-- Records compare as their bytes do from the most significant one down, for signed numbers with
the top bit flipped; both comparators are total orders in which only identical records are equal.
Tagged integers compare as their records, and the ways to call two of them equal coincide. -/
theorem comparators_total (k : Width) (o : ByteOrder) :
    (∀ a b : Bytes k.size,
      k.compare o a b =
        List.compareLex compare (o.descending a.toList) (o.descending b.toList) ∧
      k.compareSigned o a b =
        List.compareLex compare (flipTop (o.descending a.toList))
          (flipTop (o.descending b.toList))) ∧
      (Std.TransCmp (k.compare o) ∧ Std.LawfulEqCmp (k.compare o)) ∧
      (Std.TransCmp (k.compareSigned o) ∧ Std.LawfulEqCmp (k.compareSigned o)) ∧
      ∀ s t : Tagged o k.size,
        (compare s t = k.compare o s.bytes t.bytes ∧
          s.partialCompare t = some (k.compare o s.bytes t.bytes) ∧
          s.compareUnsigned t = k.compare o s.bytes t.bytes ∧
          s.compareSigned t = k.compareSigned o s.bytes t.bytes) ∧
        (s == t) = (s.bytes == t.bytes) ∧ (s.step (.equals t.get)).2 = .equal (s == t) ∧
          (s == t) = (compare s t == .eq) := by
  refine ⟨fun a b => ⟨?_, ?_⟩, ⟨inferInstance, inferInstance⟩, ⟨inferInstance, inferInstance⟩,
    fun s t => ⟨⟨?_, ?_, ?_, ?_⟩, s.beq_eq_beq_bytes t, ?_, s.beq_eq_compare t⟩⟩
  · rw [Width.compare_eq_descending, List.compare_eq_compareLex]
  · rw [Width.compareSigned_eq_descending, List.compare_eq_compareLex]
  · exact s.compare_record t
  · exact congrArg some (s.compare_record t)
  · exact s.compareUnsigned_record t
  · exact s.compareSigned_record t
  · exact congrArg Tagged.Reply.equal (s.beq_eq_beq_get t)

/-- A negative number comes before a positive one although its bytes come later. -/
example :
    Width.compareSigned .w24 .little #v[0, 0, 0x80] #v[0, 0, 0] = .lt ∧
      Width.compare .w24 .little #v[0, 0, 0x80] #v[0, 0, 0] = .gt := by decide

end Endian
