import Endian.Proofs.Buffer.Frame
import Endian.Proofs.Tagged.Plain
import Endian.Tagged.View

/-!
# Records behind one another

`records` are the records of a size that stand behind one another in the data. A view of them as
tagged integers has the same records (`view_extract`), and integers written back through the
view are the records of the new data (`records_splice_flatten`).

`updateAll_numbers` says what an operation on every integer of a view does to the values, if it
divides by no zero.
-/

namespace Endian

/-- At most `count` records of `n` bytes from a place on, as far as they fit. -/
def records (data : Array UInt8) (n : Nat) : Nat → Nat → List (Bytes n)
  | _, 0 => []
  | start, count + 1 =>
    if h : start + n ≤ data.size then
      bytesAt data start n h :: records data n (start + n) count
    else []

section Records

variable {data : Array UInt8} {n start count : Nat}

theorem records_succ (h : start + n ≤ data.size) :
    records data n start (count + 1) =
      bytesAt data start n h :: records data n (start + n) count :=
  dif_pos h

theorem length_records (h : start + n * count ≤ data.size) :
    (records data n start count).length = count := by
  induction count generalizing start with
  | zero => rfl
  | succ count ih =>
    rw [Nat.mul_succ] at h
    rw [records_succ (by omega), List.length_cons, ih (by omega)]

theorem getElem?_bytesAt {h : start + n ≤ data.size} {j : Nat} (hj : j < n) :
    (bytesAt data start n h)[j]? = data[start + j]? := by
  rw [Vector.getElem?_eq_getElem hj, Array.getElem?_eq_getElem (by omega)]
  simp only [bytesAt, Vector.getElem_ofFn]

/-- The bytes of the records are those of the data. -/
theorem getElem?_records (h : start + n * count ≤ data.size) {i : Nat} (hi : i < count)
    {j : Nat} (hj : j < n) :
    (records data n start count)[i]?.bind (·[j]?) = data[start + (n * i + j)]? := by
  induction count generalizing start i with
  | zero => omega
  | succ count ih =>
    rw [Nat.mul_succ] at h
    rw [records_succ (by omega)]
    cases i with
    | zero =>
      rw [List.getElem?_cons_zero, Option.bind_some, getElem?_bytesAt hj, Nat.mul_zero,
        Nat.zero_add]
    | succ i =>
      rw [List.getElem?_cons_succ, ih (by omega) (by omega)]
      congr 1
      rw [Nat.mul_succ]
      omega

/-- Records are determined by their bytes. -/
theorem eq_records (h : start + n * count ≤ data.size) {bss : List (Bytes n)}
    (hlen : bss.length = count)
    (heq : ∀ i < count, ∀ j < n, bss[i]?.bind (·[j]?) = data[start + (n * i + j)]?) :
    bss = records data n start count := by
  apply List.ext_getElem?
  intro i
  by_cases hi : i < count
  · have hleft : i < bss.length := by omega
    have hright : i < (records data n start count).length := by rwa [length_records h]
    rw [List.getElem?_eq_getElem hleft, List.getElem?_eq_getElem hright]
    congr 1
    apply Vector.ext
    intro j hj
    have hat := (heq i hi j hj).trans (getElem?_records h hi hj).symm
    rw [List.getElem?_eq_getElem hleft, List.getElem?_eq_getElem hright, Option.bind_some,
      Option.bind_some, Vector.getElem?_eq_getElem hj, Vector.getElem?_eq_getElem hj] at hat
    exact Option.some.inj hat
  · rw [List.getElem?_eq_none (by omega),
      List.getElem?_eq_none (by rw [length_records h]; omega)]

end Records

namespace Tagged

variable {o : ByteOrder} {n : Nat}

/-! ### Views -/

theorem view_extract {data : Array UInt8} {start count : Nat} (hn : 0 < n)
    (h : start + n * count ≤ data.size) :
    ∃ ts : List (Tagged o n), view (data.extract start (start + n * count)) = .ok ts ∧
      ts.map bytes = records data n start count := by
  have hsize : (data.extract start (start + n * count)).size = n * count := by
    rw [Array.size_extract]
    omega
  refine ⟨elements (data.extract start (start + n * count)), ?_, eq_records h ?_ ?_⟩
  · rw [view, hsize, if_pos (Nat.mul_mod_right n count)]
  · rw [List.length_map, elements, List.length_ofFn, hsize, Nat.mul_div_cancel_left _ hn]
  · intro i hi j hj
    have hcount : i < (data.extract start (start + n * count)).size / n := by
      rwa [hsize, Nat.mul_div_cancel_left _ hn]
    have hin : i * n + j < n * count := hsize ▸ element_bound hcount hj
    rw [List.getElem?_map, elements, List.getElem?_ofFn, dif_pos hcount]
    simp only [Option.map_some, Option.bind_some, Vector.getElem?_ofFn, dif_pos hj,
      Array.getElem_extract]
    rw [Nat.mul_comm n i, Array.getElem?_eq_getElem (by omega)]

/-! ### Integers written back -/

theorem size_flatten (ts : List (Tagged o n)) : (flatten ts).size = n * ts.length := by
  rw [flatten, List.size_toArray, length_flatMap_toList]

theorem getElem?_flatten {ts : List (Tagged o n)} {i j : Nat} (hi : i < ts.length) (hj : j < n) :
    (flatten ts)[n * i + j]? = (ts.map bytes)[i]?.bind (·[j]?) := by
  rw [flatten, List.getElem?_toArray, getElem?_flatMap_toList bytes hi hj, List.getElem?_map,
    List.getElem?_eq_getElem hi]
  rfl

theorem records_splice_flatten {data : Array UInt8} {start : Nat} {ts : List (Tagged o n)}
    (h : start + n * ts.length ≤ data.size) :
    records (splice data start (flatten ts)) n start ts.length = ts.map bytes := by
  have hsplice : start + (flatten ts).size ≤ data.size := by rwa [size_flatten]
  symm
  refine eq_records ?_ (List.length_map _) ?_
  · rwa [size_splice hsplice]
  · intro i hi j hj
    have hin : i * n + j < n * ts.length :=
      element_bound (by rwa [Nat.mul_div_cancel_left _ (by omega)]) hj
    rw [Nat.mul_comm i n] at hin
    have hplace : start ≤ start + (n * i + j) ∧
        start + (n * i + j) < start + (flatten ts).size := by
      rw [size_flatten]
      omega
    rw [getElem?_splice hsplice, if_pos hplace, Nat.add_sub_cancel_left, getElem?_flatten hi hj]

/-! ### An operation on every integer -/

/-- An operation that divides by no zero gives a word on every word. -/
theorem apply_ok {op : WordOp n} (h : op ≠ .div 0) :
    ∃ f : Word n → Word n, ∀ w, op.apply w = .ok (f w) := by
  cases op with
  | div v =>
    have hv : v ≠ 0#(8 * n) := fun hv => h (congrArg WordOp.div hv)
    exact ⟨(· / v), fun w => if_neg hv⟩
  | _ => exact ⟨_, fun _ => rfl⟩

theorem updateAll_of_apply {op : WordOp n} {f : Word n → Word n}
    (hf : ∀ w, op.apply w = .ok (f w)) (ts : List (Tagged o n)) :
    updateAll op ts = .ok (ts.map fun t => t.put (f t.get)) := by
  have hupdate : update op = fun t : Tagged o n => pure (t.put (f t.get)) := by
    funext t
    rw [update, hf]
    rfl
  rw [updateAll, hupdate, List.mapM_pure]
  rfl

/-- An operation does to the values of a list what it does to plain numbers. -/
theorem updateAll_numbers {op : WordOp n} (h : op ≠ .div 0) (ts : List (Tagged o n)) :
    ∃ us : List (Tagged o n), updateAll op ts = .ok us ∧ us.length = ts.length ∧
      (ts.map (·.get.toNat)).mapM op.onNumber = .ok (us.map (·.get.toNat)) := by
  obtain ⟨f, hf⟩ := apply_ok h
  refine ⟨_, updateAll_of_apply hf ts, List.length_map _, ?_⟩
  have hnumber : ∀ w : Word n, op.onNumber w.toNat = .ok (f w).toNat := by
    intro w
    rw [← op.toNat_apply, hf]
    rfl
  have honNumber : (fun t : Tagged o n => op.onNumber t.get.toNat) =
      fun t => pure (t.put (f t.get)).get.toNat := by
    funext t
    rw [hnumber, get_put]
    rfl
  rw [List.mapM_map, List.map_map]
  show ts.mapM (fun t : Tagged o n => op.onNumber t.get.toNat) = _
  rw [honNumber, List.mapM_pure]
  rfl

end Tagged

end Endian
