import Endian.Guard.Allocation
import Endian.Proofs.Buffer.Frame
import Endian.Proofs.Word.Rounding

/-!
# Rows in memory and rows as such

A row that was moved into memory is found there again from the address of its first element: the
distance to the header does not depend on the length of the row (`Placed.headerOf_of_fits`), the header
tells that length (`Placed.read_header`), and the elements stand side by side
(`Allocation.holds_ofRow`). So a slot that owns the allocation answers and releases as one that owns the
row itself (`Holds.first?_eq`, `Holds.row?_eq`, `Holds.destroy_eq`). A row can be moved into memory
exactly if its layout fits (`exists_ofRow_iff`).
-/

namespace Endian

/-! ### Layouts -/

namespace Layout

theorem isLeast_roundUp {a : Nat} (ha : 0 < a) (n : Nat) :
    IsLeast (multiplesFrom n a) (roundUp n a) := Endian.isLeast_roundUp ha

theorem le_roundUp {a : Nat} (ha : 0 < a) (n : Nat) : n ≤ roundUp n a := (isLeast_roundUp ha n).1.2

/-- Where the elements of a row start, whatever their number. -/
def start (elem : Layout) : Nat := roundUp header.size elem.align

/-- The whole row stays in the limit. -/
def Fits (elem : Layout) (len : Nat) : Prop :=
  elem.start + elem.size * len ≤ sizeLimit - (max header.align elem.align - 1)

/-- The layout of header and elements, padded at the end. -/
def whole (elem : Layout) (len : Nat) : Layout :=
  pad ⟨elem.start + elem.size * len, max header.align elem.align⟩

theorem le_size_whole (elem : Layout) (len : Nat) :
    elem.start + elem.size * len ≤ (elem.whole len).size :=
  le_roundUp (Nat.lt_of_lt_of_le (by decide) (Nat.le_max_left _ _)) _

theorem eight_le_start {elem : Layout} (h : 0 < elem.align) : 8 ≤ elem.start := le_roundUp h 8

theorem Fits.zero {elem : Layout} {len : Nat} (h : elem.Fits len) : elem.Fits 0 := by
  unfold Fits at *
  omega

theorem row_of_fits {elem : Layout} {len : Nat} (h : elem.Fits len) :
    elem.row len = .ok (elem.whole len, elem.start) := by
  unfold Fits at h
  have harray : elem.array len = some ⟨elem.size * len, elem.align⟩ := by
    rw [array, check, if_pos (by simp only; omega)]
  have happend : header.append ⟨elem.size * len, elem.align⟩ =
      some (⟨elem.start + elem.size * len, max header.align elem.align⟩, elem.start) := by
    rw [append, check, if_pos (by simpa only [start] using h)]
    rfl
  rw [row, harray, Option.bind_some, happend, whole]

theorem row_of_not_fits {elem : Layout} {len : Nat} (h : ¬ elem.Fits len) :
    elem.row len = .error (.rowTooLarge len) := by
  have hnone : (elem.array len).bind header.append = none := by
    unfold array check
    split
    · rw [Option.bind_some, append, check, if_neg (by simpa only [Fits, start] using h)]
      rfl
    · rfl
  rw [row, hnone]

end Layout

/-! ### Memory -/

namespace Region

variable {m : Region} {address : Nat} {bs : Array UInt8}

@[simp] theorem size_fresh (base size : Nat) (stray : Nat → UInt8) :
    (fresh base size stray).bytes.size = size := Array.size_ofFn

theorem size_write (h : address - m.base + bs.size ≤ m.bytes.size) :
    (m.write address bs).bytes.size = m.bytes.size := size_splice h

/-- What was written is read back, in part or as a whole. -/
theorem read_write (h : address - m.base + bs.size ≤ m.bytes.size) {place n : Nat} {v : Bytes n}
    (hbase : m.base ≤ address) (hle : address ≤ place)
    (hv : ∀ j, (hj : j < n) → bs[place - address + j]? = some v[j]) :
    (m.write address bs).read place n = v := by
  apply Vector.ext
  intro j hj
  have hat := hv j hj
  have hlt : place - address + j < bs.size := (Array.getElem?_eq_some_iff.1 hat).1
  have hplace : place - m.base + j - (address - m.base) = place - address + j := by omega
  simp only [read, write, Vector.getElem_ofFn, Array.getD_eq_getD_getElem?]
  rw [getElem?_splice h, if_pos (by omega), hplace, hat, Option.getD_some]

/-- A write leaves alone what lies before it. -/
theorem read_write_of_le (h : address - m.base + bs.size ≤ m.bytes.size) {place n : Nat}
    (hbase : m.base ≤ place) (hle : place + n ≤ address) :
    (m.write address bs).read place n = m.read place n := by
  apply Vector.ext
  intro i hi
  simp only [read, write, Vector.getElem_ofFn, Array.getD_eq_getD_getElem?]
  rw [getElem?_splice h, if_neg (by omega)]

end Region

/-! ### Rows of any layout -/

namespace Placed

/-- Fresh memory with the number of elements at the base. -/
def headed (p : Placed) (len : Nat) (stray : Nat → UInt8) : Region :=
  (Region.fresh p.base p.layout.size stray).write p.base
    (Word.image (BitVec.ofNat (8 * 8) len : Word 8)).toArray

/-- The memory of a row: the number of elements at the base, and their bytes from the first one on. -/
def memory (p : Placed) (len : Nat) (stray : Nat → UInt8) (content : Array UInt8) : Region :=
  (p.headed len stray).write p.first content

/-- Where a row lies from a base on. -/
def ofBase (elem : Layout) (len base : Nat) : Placed :=
  ⟨base, elem.whole len, base + elem.start⟩

variable {elem : Layout} {len : Nat}

theorem place_of_fits (h : elem.Fits len) (base : Nat) :
    place elem len base = .ok (ofBase elem len base) := by
  rw [place, Layout.row_of_fits h]
  rfl

theorem headerOf_of_fits (h : elem.Fits len) (base : Nat) :
    headerOf elem (ofBase elem len base).first = .ok base := by
  rw [headerOf, Layout.row_of_fits h.zero]
  exact congrArg Except.ok (Nat.add_sub_cancel ..)

theorem recover_of_fits (h : elem.Fits len) (base : Nat) :
    recover elem len (ofBase elem len base).first = .ok (ofBase elem len base) := by
  rw [recover, Layout.row_of_fits h]
  exact congrArg (fun b => Except.ok (Placed.mk b (elem.whole len) (base + elem.start)))
    (Nat.add_sub_cancel ..)

section Memory

variable (base : Nat) (stray : Nat → UInt8) {content : Array UInt8}

theorem header_fits (helem : 0 < elem.align) :
    base - base + (Word.image (BitVec.ofNat (8 * 8) len : Word 8)).toArray.size ≤
      (Region.fresh base (elem.whole len).size stray).bytes.size := by
  have hsize := elem.le_size_whole len
  have hstart := Layout.eight_le_start helem
  rw [Region.size_fresh, Vector.size_toArray]
  omega

theorem content_fits (helem : 0 < elem.align) (hcontent : content.size = elem.size * len) :
    base + elem.start - ((ofBase elem len base).headed len stray).base + content.size ≤
      ((ofBase elem len base).headed len stray).bytes.size := by
  have hsize := elem.le_size_whole len
  rw [headed, ofBase, Region.size_write (header_fits base stray helem), Region.size_fresh]
  show base + elem.start - base + content.size ≤ (elem.whole len).size
  omega

/-- The elements do not reach the number in front of them. -/
theorem read_header (helem : 0 < elem.align) (hcontent : content.size = elem.size * len) :
    ((ofBase elem len base).memory len stray content).read base 8 =
      Word.image (BitVec.ofNat (8 * 8) len : Word 8) := by
  have hbefore := Region.read_write_of_le (content_fits base stray helem hcontent)
    (Nat.le_refl base) (Nat.add_le_add_left (Layout.eight_le_start helem) base)
  refine hbefore.trans (Region.read_write (header_fits base stray helem) (Nat.le_refl base)
    (Nat.le_refl base) fun j hj => ?_)
  show (Word.image _).toArray[base - base + j]? = _
  rw [Nat.sub_self, Nat.zero_add, Vector.getElem?_toArray, Vector.getElem?_eq_getElem hj]

theorem read_content (helem : 0 < elem.align) (hcontent : content.size = elem.size * len)
    {i n : Nat} {v : Bytes n} (hv : ∀ j, (hj : j < n) → content[i + j]? = some v[j]) :
    ((ofBase elem len base).memory len stray content).read (base + elem.start + i) n = v := by
  refine Region.read_write (content_fits base stray helem hcontent) (Nat.le_add_right _ _)
    (Nat.le_add_right _ _) fun j hj => ?_
  show content[base + elem.start + i - (base + elem.start) + j]? = _
  rw [Nat.add_sub_cancel_left, hv j hj]

end Memory

end Placed

/-! ### Rows -/

namespace Allocation

variable {α : Type} [Inline α]

theorem size_rowImage (items : List α) :
    (rowImage items).size = (Inline.layout α).size * items.length := by
  rw [rowImage, List.size_toArray, length_flatMap_toList]

theorem getElem?_rowImage {items : List α} {i j : Nat} (hi : i < items.length)
    (hj : j < (Inline.layout α).size) :
    (rowImage items)[(Inline.layout α).size * i + j]? = (Inline.image items[i])[j]? := by
  rw [rowImage, List.getElem?_toArray, getElem?_flatMap_toList Inline.image hi hj]

@[simp] theorem length_items (a : Allocation α) (len : Nat) : (a.items len).length = len :=
  List.length_ofFn

@[simp] theorem getElem_items (a : Allocation α) {len i : Nat} (h : i < (a.items len).length) :
    (a.items len)[i] = a.item i := List.getElem_ofFn ..

/-- An allocation gives a row back. -/
structure Holds (a : Allocation α) (row : List α) : Prop where
  length_eq : a.length = .ok row.length
  items_eq : a.items row.length = row
  recover : ∃ p, Placed.recover (Inline.layout α) row.length a.first = .ok p

section Laid

variable (base : Nat) (stray : Nat → UInt8) (row : List α)

/-- Fresh memory with the header of a row. -/
def headed : Region :=
  (Region.fresh base ((Inline.layout α).whole row.length).size stray).write base
    (Word.image (BitVec.ofNat (8 * 8) row.length : Word 8)).toArray

/-- Fresh memory with the header and the elements of a row. -/
def laid : Region := (headed base stray row).write (base + (Inline.layout α).start) (rowImage row)

/-- A row in such memory. -/
def placed : Allocation α := ⟨laid base stray row, base + (Inline.layout α).start⟩

theorem ofRow_eq_map : ofRow base stray row =
    (Placed.place (Inline.layout α) row.length base).map fun p =>
      ⟨p.memory row.length stray (rowImage row), p.first⟩ := rfl

theorem ofRow_of_fits (h : (Inline.layout α).Fits row.length) :
    ofRow base stray row = .ok (placed base stray row) := by
  rw [ofRow_eq_map, Placed.place_of_fits h]
  rfl

theorem laid_eq_memory : laid base stray row =
    (Placed.ofBase (Inline.layout α) row.length base).memory row.length stray (rowImage row) := rfl

theorem read_header : (laid base stray row).read base 8 =
    Word.image (BitVec.ofNat (8 * 8) row.length : Word 8) := by
  rw [laid_eq_memory]
  exact Placed.read_header base stray Inline.align_pos (size_rowImage row)

theorem read_item {i : Nat} (hi : i < row.length) :
    (laid base stray row).read (base + (Inline.layout α).start + (Inline.layout α).size * i)
      (Inline.layout α).size = Inline.image row[i] := by
  rw [laid_eq_memory]
  refine Placed.read_content base stray Inline.align_pos (size_rowImage row) fun j hj => ?_
  rw [getElem?_rowImage hi hj, Vector.getElem?_eq_getElem hj]

theorem item_placed {i : Nat} (hi : i < row.length) : (placed base stray row).item i = row[i] := by
  show Inline.ofImage ((laid base stray row).read _ _) = row[i]
  rw [placed, read_item base stray row hi, Inline.ofImage_image]

end Laid

theorem exists_ofRow_iff {base : Nat} {stray : Nat → UInt8} {row : List α} :
    (∃ a, ofRow base stray row = .ok a) ↔ (Inline.layout α).Fits row.length := by
  refine ⟨fun ⟨a, h⟩ => ?_, fun h => ⟨_, ofRow_of_fits base stray row h⟩⟩
  by_cases hfits : (Inline.layout α).Fits row.length
  · exact hfits
  · rw [ofRow, Placed.place, Layout.row_of_not_fits hfits] at h
    cases h

/-- A row that was moved into memory is there. -/
theorem holds_ofRow {base : Nat} {stray : Nat → UInt8} {row : List α} {a : Allocation α}
    (hlen : row.length < UInt64.size) (h : ofRow base stray row = .ok a) : a.Holds row := by
  have hfits : (Inline.layout α).Fits row.length := exists_ofRow_iff.1 ⟨a, h⟩
  rw [ofRow_of_fits base stray row hfits] at h
  cases h
  refine ⟨?_, ?_, ?_⟩
  · have hheader : Placed.headerOf (Inline.layout α) (placed base stray row).first = .ok base :=
      Placed.headerOf_of_fits hfits base
    rw [length, hheader, Except.map, placed, read_header, Word.ofImage_image, BitVec.toNat_ofNat,
      Nat.mod_eq_of_lt hlen]
  · apply List.ext_getElem
    · exact length_items _ _
    · intro i _ hi
      rw [getElem_items, item_placed base stray row hi]
  · exact ⟨_, Placed.recover_of_fits hfits base⟩

namespace Holds

variable {a : Allocation α} {row : List α} [Element α]

theorem row?_eq (h : a.Holds row) : Owned.row? a = Owned.row? (Row.mk row) := by
  show a.length.toOption.map a.items = some row
  rw [h.length_eq]
  exact congrArg some h.items_eq

theorem first?_eq (h : a.Holds row) : Owned.first? a = Owned.first? (Row.mk row) := by
  show (a.length.toOption.bind fun len => if len = 0 then none else some (a.item 0)) = row.head?
  rw [h.length_eq]
  show (if row.length = 0 then none else some (a.item 0)) = row.head?
  cases row with
  | nil => rfl
  | cons first rest =>
    have hne : (first :: rest).length ≠ 0 := Nat.succ_ne_zero rest.length
    have hitems : a.items (rest.length + 1) = first :: rest := h.items_eq
    rw [items, List.ofFn_succ] at hitems
    rw [if_neg hne]
    exact congrArg some (List.cons.inj hitems).1

theorem destroy_eq (h : a.Holds row) (unwinding : Bool) :
    Owned.destroy unwinding a = Owned.destroy unwinding (Row.mk row) := by
  obtain ⟨p, hp⟩ := h.recover
  simp only [Owned.destroy, h.length_eq, Except.bind, hp, Except.map, h.items_eq]

end Holds

end Allocation

end Endian
