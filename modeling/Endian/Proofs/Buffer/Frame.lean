import Endian.Buffer.Basic

/-!
# What a store leaves alone

A store puts its bytes in place of as many others and keeps the rest: `getElem?_replace` says which
byte stands at each place afterwards. So the stored bytes read back (`bytesAt_replace_self`), and
bytes read elsewhere are the same before and after (`bytesAt_congr`). Where pieces of one size are
stored side by side, `getElem?_flatMap_toList` finds the bytes of each.
-/

namespace Endian

/-- The byte at each place after a splice. -/
theorem getElem?_splice {data bs : Array UInt8} {start : Nat} (h : start + bs.size ≤ data.size)
    (i : Nat) :
    (splice data start bs)[i]? =
      if start ≤ i ∧ i < start + bs.size then bs[i - start]? else data[i]? := by
  have hstart : (data.extract 0 start).size = start := by
    rw [Array.size_extract]
    omega
  have hstop : (data.extract 0 start ++ bs).size = start + bs.size := by
    rw [Array.size_append, hstart]
  unfold splice
  by_cases hlt : i < start
  · rw [if_neg (by omega), Array.getElem?_append_left (by omega),
      Array.getElem?_append_left (by omega), Array.getElem?_extract, if_pos (by omega),
      Nat.zero_add]
  by_cases hin : i < start + bs.size
  · rw [if_pos ⟨by omega, hin⟩, Array.getElem?_append_left (by omega),
      Array.getElem?_append_right (by omega), hstart]
  · rw [if_neg (by omega), Array.getElem?_append_right (by omega), hstop]
    by_cases hend : i < data.size
    · rw [Array.getElem?_extract, if_pos (by omega), Nat.add_sub_cancel' (by omega)]
    · rw [Array.getElem?_extract, if_neg (by omega), Array.getElem?_eq_none (by omega)]

/-- The bytes of a field are those at its places. -/
theorem bytesAt_congr {data data' : Array UInt8} {start n : Nat} (h : start + n ≤ data.size)
    (h' : start + n ≤ data'.size) (heq : ∀ i, start ≤ i → i < start + n → data[i]? = data'[i]?) :
    bytesAt data start n h = bytesAt data' start n h' := by
  apply Vector.ext
  intro i hi
  have hat := heq (start + i) (by omega) (by omega)
  rw [Array.getElem?_eq_getElem (by omega), Array.getElem?_eq_getElem (by omega)] at hat
  simp only [bytesAt, Vector.getElem_ofFn]
  exact Option.some.inj hat

/-! ### Side by side -/

section Pieces

variable {α : Type} {n : Nat} (f : α → Bytes n)

theorem length_flatMap_toList (l : List α) :
    (l.flatMap fun a => (f a).toList).length = n * l.length := by
  induction l with
  | nil => rfl
  | cons a l ih =>
    rw [List.flatMap_cons, List.length_append, ih, Vector.length_toList, List.length_cons,
      Nat.mul_succ, Nat.add_comm]

theorem getElem?_flatMap_toList {l : List α} {i j : Nat} (hi : i < l.length) (hj : j < n) :
    (l.flatMap fun a => (f a).toList)[n * i + j]? = (f l[i])[j]? := by
  induction l generalizing i with
  | nil => cases hi
  | cons a l ih =>
    rw [List.flatMap_cons]
    cases i with
    | zero =>
      rw [Nat.mul_zero, Nat.zero_add, List.getElem?_append_left (by rwa [Vector.length_toList]),
        Vector.getElem?_toList]
      rfl
    | succ i =>
      have hrest : n * (i + 1) + j - n = n * i + j := by
        rw [Nat.mul_succ]
        omega
      rw [List.getElem?_append_right (by rw [Vector.length_toList, Nat.mul_succ]; omega),
        Vector.length_toList, hrest, ih (by simpa using hi)]
      rfl

end Pieces

/-! ### Buffers -/

namespace Buffer

variable {n : Nat} (b : Buffer) (start : Nat) (bs : Bytes n) (h : start + n ≤ b.bytes.size)

theorem getElem?_replace (i : Nat) :
    (b.replace start bs h).bytes[i]? =
      if start ≤ i ∧ i < start + n then bs[i - start]? else b.bytes[i]? := by
  have hsize : start + bs.toArray.size ≤ b.bytes.size := by
    rw [Vector.size_toArray]
    exact h
  show (splice b.bytes start bs.toArray)[i]? = _
  rw [getElem?_splice hsize, Vector.size_toArray, Vector.getElem?_toArray]

/-- A store leaves the bytes alone that lie before its own. -/
theorem getElem?_replace_of_lt {i : Nat} (hi : i < start) :
    (b.replace start bs h).bytes[i]? = b.bytes[i]? := by
  rw [getElem?_replace, if_neg (by omega)]

theorem bytesAt_replace_self (h' : start + n ≤ (b.replace start bs h).bytes.size) :
    bytesAt (b.replace start bs h).bytes start n h' = bs := by
  apply Vector.ext
  intro i hi
  have hat := b.getElem?_replace start bs h (start + i)
  rw [if_pos (by omega), Nat.add_sub_cancel_left, Array.getElem?_eq_getElem (by omega),
    Vector.getElem?_eq_getElem hi] at hat
  simp only [bytesAt, Vector.getElem_ofFn]
  exact Option.some.inj hat

end Buffer

end Endian
