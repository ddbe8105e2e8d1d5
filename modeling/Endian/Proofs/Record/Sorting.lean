import Endian.Proofs.Record.Order

/-!
# Sorted tables

Sorting by a total order in which only identical elements are equal has one result: the permutation
that is in order (`eq_sortBy_iff`). So it does not matter in which sequence the records of a table
stand before, and two sorts are compared by what their comparators say of two records. The signed
order puts the records with the sign bit set first and is the unsigned one among those and among the
others, hence the signed sort is two unsigned ones (`sortBy_split`).
-/

namespace Endian

/-! ### Sorting by a comparator -/

section Comparator

variable {α β : Type} {cmp cmp' : α → α → Ordering} {xs ys : List α}

/-- The elements in ascending order; equal ones keep their places. -/
def sortBy (cmp : α → α → Ordering) (xs : List α) : List α :=
  xs.mergeSort fun a b => (cmp a b).isLE

theorem sortBy_perm_self (cmp : α → α → Ordering) (xs : List α) : (sortBy cmp xs).Perm xs :=
  List.mergeSort_perm xs _

theorem isLE_total [Std.OrientedCmp cmp] (a b : α) :
    ((cmp a b).isLE || (cmp b a).isLE) = true := by
  have hswap : cmp a b = (cmp b a).swap := Std.OrientedCmp.eq_swap
  rw [hswap]
  cases cmp b a <;> rfl

theorem pairwise_sortBy [Std.TransCmp cmp] (xs : List α) :
    (sortBy cmp xs).Pairwise fun a b => (cmp a b).isLE = true :=
  List.pairwise_mergeSort (fun _ _ _ => Std.TransCmp.isLE_trans) isLE_total xs

theorem map_sortBy {cmp' : β → β → Ordering} {f : α → β}
    (h : ∀ a b, cmp a b = cmp' (f a) (f b)) (xs : List α) :
    (sortBy cmp xs).map f = sortBy cmp' (xs.map f) :=
  List.map_mergeSort fun a _ b _ => congrArg Ordering.isLE (h a b)

variable [Std.TransCmp cmp] [Std.LawfulEqCmp cmp]

/-- The result of sorting is the one permutation that is in order. -/
theorem eq_sortBy_iff :
    ys = sortBy cmp xs ↔ ys.Perm xs ∧ ys.Pairwise fun a b => (cmp a b).isLE = true := by
  constructor
  · rintro rfl
    exact ⟨sortBy_perm_self cmp xs, pairwise_sortBy xs⟩
  · rintro ⟨hperm, hordered⟩
    refine List.Perm.eq_of_pairwise ?_ hordered (pairwise_sortBy xs)
      (hperm.trans (sortBy_perm_self cmp xs).symm)
    intro a b _ _ hab hba
    exact Std.LawfulEqCmp.eq_of_compare (Std.OrientedCmp.isLE_antisymm hab hba)

theorem sortBy_congr_perm (h : ys.Perm xs) : sortBy cmp ys = sortBy cmp xs :=
  eq_sortBy_iff.2 ⟨(sortBy_perm_self cmp ys).trans h, pairwise_sortBy ys⟩

/-- Where the elements with the property `p` come before all others, they can be sorted apart. -/
theorem sortBy_split [Std.TransCmp cmp'] {p : α → Bool}
    (hsame : ∀ a b, p a = p b → cmp a b = cmp' a b)
    (hacross : ∀ a b, p a = true → p b = false → cmp a b = .lt) (xs : List α) :
    sortBy cmp xs = sortBy cmp' (xs.filter p) ++ sortBy cmp' (xs.filter fun a => !p a) := by
  have hpos : ∀ a ∈ sortBy cmp' (xs.filter p), p a = true := fun a ha =>
    (List.mem_filter.1 ((sortBy_perm_self cmp' _).mem_iff.1 ha)).2
  have hneg : ∀ a ∈ sortBy cmp' (xs.filter fun a => !p a), p a = false := fun a ha => by
    simpa using (List.mem_filter.1 ((sortBy_perm_self cmp' _).mem_iff.1 ha)).2
  refine (eq_sortBy_iff.2 ⟨?_, List.pairwise_append.2 ⟨?_, ?_, ?_⟩⟩).symm
  · exact ((sortBy_perm_self cmp' _).append (sortBy_perm_self cmp' _)).trans
      (List.filter_append_perm p xs)
  · refine (pairwise_sortBy _).imp_of_mem fun ha hb hle => ?_
    rwa [hsame _ _ ((hpos _ ha).trans (hpos _ hb).symm)]
  · refine (pairwise_sortBy _).imp_of_mem fun ha hb hle => ?_
    rwa [hsame _ _ ((hneg _ ha).trans (hneg _ hb).symm)]
  · intro a ha b hb
    rw [hacross a b (hpos a ha) (hneg b hb)]
    rfl

end Comparator

/-! ### Tables of records -/

namespace Width

variable {k : Width} {o : ByteOrder} {a b : Bytes k.size}

/-- The sign bit of a record. -/
def isNegative (k : Width) (o : ByteOrder) (bs : Bytes k.size) : Bool := (Word.load o bs).msb

theorem isNegative_iff : k.isNegative o a = true ↔ digitSpan k.size ≤ 2 * o.number a.toList := by
  have hspan : 2 ^ (8 * k.size) = digitSpan k.size := Nat.pow_mul 2 8 k.size
  rw [isNegative, BitVec.msb_eq_true_iff_two_mul_ge, Word.toNat_load, hspan]

theorem signedValue_of_isNegative (h : k.isNegative o a = true) :
    signedValue k.size (o.number a.toList) = o.number a.toList - digitSpan k.size :=
  if_neg (Nat.not_lt.2 (isNegative_iff.1 h))

theorem signedValue_of_not_isNegative (h : k.isNegative o a = false) :
    signedValue k.size (o.number a.toList) = o.number a.toList := by
  have hlt : ¬ digitSpan k.size ≤ 2 * o.number a.toList := by
    rw [← isNegative_iff, h]
    decide
  exact if_pos (Nat.not_le.1 hlt)

/-- Among numbers of the same sign the signed order is the unsigned one. -/
theorem compareSigned_of_eq (h : k.isNegative o a = k.isNegative o b) :
    k.compareSigned o a b = k.compare o a b := by
  rw [compareSigned_eq_number, compare_eq_number, ← compare_natCast]
  cases hb : k.isNegative o b with
  | true =>
    rw [signedValue_of_isNegative (h.trans hb), signedValue_of_isNegative hb, Int.sub_eq_add_neg,
      Int.sub_eq_add_neg, compare_add_right]
  | false => rw [signedValue_of_not_isNegative (h.trans hb), signedValue_of_not_isNegative hb]

theorem compareSigned_of_isNegative (ha : k.isNegative o a = true)
    (hb : k.isNegative o b = false) : k.compareSigned o a b = .lt := by
  have hlt : o.number a.toList < digitSpan k.size := by simpa using o.number_lt a.toList
  rw [compareSigned_eq_number, signedValue_of_isNegative ha, signedValue_of_not_isNegative hb,
    Int.compare_eq_lt]
  omega

theorem compare_reverse (a b : Bytes k.size) :
    k.compare o a b = k.compare o.swapped a.reverse b.reverse := by
  simp only [compare_eq_number, Vector.toList_reverse, ByteOrder.number_swapped_reverse]

theorem compareSigned_reverse (a b : Bytes k.size) :
    k.compareSigned o a b = k.compareSigned o.swapped a.reverse b.reverse := by
  simp only [compareSigned_eq_number, Vector.toList_reverse, ByteOrder.number_swapped_reverse]

/-- Records of the opposite order are sorted by reversing them before and after. -/
theorem sortBy_reverse {cmp cmp' : Bytes k.size → Bytes k.size → Ordering}
    (h : ∀ a b, cmp a b = cmp' a.reverse b.reverse) (rs : List (Bytes k.size)) :
    sortBy cmp rs = (sortBy cmp' (rs.map Vector.reverse)).map Vector.reverse := by
  have hback : Vector.reverse ∘ Vector.reverse = (id : Bytes k.size → Bytes k.size) :=
    funext Vector.reverse_reverse
  rw [← map_sortBy h, List.map_map, hback, List.map_id]

/-- Sorting a table gives the one permutation that is in order, whatever the sequence before. The
signed sort is the unsigned one of the records with the sign bit set, then that of the others;
the opposite order is sorted through reversed records; and tagged integers are sorted as their
records are. -/
theorem sort_table (k : Width) (o : ByteOrder) (rs : List (Bytes k.size)) :
    (∀ out, out = k.sort o rs ↔
        out.Perm rs ∧ out.Pairwise fun a b => (k.compare o a b).isLE = true) ∧
      (∀ out, out = k.sortSigned o rs ↔
        out.Perm rs ∧ out.Pairwise fun a b => (k.compareSigned o a b).isLE = true) ∧
      (∀ rs' : List (Bytes k.size), rs'.Perm rs →
        k.sort o rs' = k.sort o rs ∧ k.sortSigned o rs' = k.sortSigned o rs) ∧
      k.sortSigned o rs = k.sort o (rs.filter (k.isNegative o)) ++
        k.sort o (rs.filter fun r => !k.isNegative o r) ∧
      k.sort o rs = (k.sort o.swapped (rs.map Vector.reverse)).map Vector.reverse ∧
      k.sortSigned o rs = (k.sortSigned o.swapped (rs.map Vector.reverse)).map Vector.reverse ∧
      ∀ ts : List (Tagged o k.size),
        (Tagged.sort ts).map Tagged.bytes = k.sort o (ts.map Tagged.bytes) ∧
        (Tagged.sortUnsigned ts).map Tagged.bytes = k.sort o (ts.map Tagged.bytes) ∧
        (Tagged.sortSigned ts).map Tagged.bytes = k.sortSigned o (ts.map Tagged.bytes) := by
  -- every sort of a table is `sortBy` of its comparator by definition
  refine ⟨fun out => eq_sortBy_iff, fun out => eq_sortBy_iff,
    fun rs' h => ⟨sortBy_congr_perm h, sortBy_congr_perm h⟩, ?_, ?_, ?_, fun ts => ⟨?_, ?_, ?_⟩⟩
  · exact sortBy_split (fun _ _ => compareSigned_of_eq) (fun _ _ => compareSigned_of_isNegative) rs
  · exact sortBy_reverse compare_reverse rs
  · exact sortBy_reverse compareSigned_reverse rs
  · exact map_sortBy Tagged.compare_record ts
  · exact map_sortBy Tagged.compareUnsigned_record ts
  · exact map_sortBy Tagged.compareSigned_record ts

/-- The numbers 258, -1 and 3, little-endian. -/
theorem sort_table_signs :
    let rs : List (Bytes 2) := [#v[2, 1], #v[0xFF, 0xFF], #v[3, 0]]
    let rs' : List (Bytes 2) := [#v[0xFF, 0xFF], #v[3, 0], #v[2, 1]]
    rs'.Perm rs ∧ Width.sort .w16 .little rs' = [#v[3, 0], #v[2, 1], #v[0xFF, 0xFF]] ∧
      Width.sortSigned .w16 .little rs' = [#v[0xFF, 0xFF], #v[3, 0], #v[2, 1]] := by
  intro rs rs'
  have hperm : rs'.Perm rs := by decide
  obtain ⟨hunsigned, hsigned, hsame, -⟩ := sort_table .w16 .little rs
  obtain ⟨hsort, hsortSigned⟩ := hsame rs' hperm
  rw [hsort, hsortSigned]
  refine ⟨hperm, Eq.symm ((hunsigned _).2 ⟨?_, ?_⟩), Eq.symm ((hsigned _).2 ⟨hperm, ?_⟩)⟩
  · show List.Perm (_ : List (Bytes 2)) rs
    decide
  · show List.Pairwise (fun a b : Bytes 2 => (Width.compare .w16 .little a b).isLE = true) _
    decide
  · show List.Pairwise (fun a b : Bytes 2 => (Width.compareSigned .w16 .little a b).isLE = true) _
    decide

end Width

end Endian
