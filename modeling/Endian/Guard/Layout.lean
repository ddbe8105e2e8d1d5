import Endian.Failure

/-!
# Where a row lies in memory

A row is kept in one allocation: a header with the number of elements, padding up to the elements'
alignment, and the elements. A slot points at the first element, from which `headerOf` finds the
header and `recover` the whole allocation again.
-/

namespace Endian

/-- Size and alignment of a piece of memory. -/
structure Layout where
  size : Nat
  align : Nat
deriving DecidableEq, Repr

namespace Layout

/-- The least multiple of `a` that is not below `n`. -/
def roundUp (n a : Nat) : Nat := (n + (a - 1)) / a * a

/-- The greatest size of an allocation. -/
def sizeLimit : Nat := UInt64.size / 2 - 1

/-- The layout, if its size stays in the limit when it is rounded up to the alignment. -/
def check (l : Layout) : Option Layout := if l.size ≤ sizeLimit - (l.align - 1) then some l else none

/-- As many elements side by side. -/
def array (elem : Layout) (len : Nat) : Option Layout := check ⟨elem.size * len, elem.align⟩

/-- Two pieces one after the other, and where the second one starts. -/
def append (l next : Layout) : Option (Layout × Nat) :=
  let start := roundUp l.size next.align
  (check ⟨start + next.size, max l.align next.align⟩).map fun whole => (whole, start)

/-- The size rounded up to the alignment. -/
def pad (l : Layout) : Layout := ⟨roundUp l.size l.align, l.align⟩

/-- The header that holds the number of elements. -/
def header : Layout := ⟨8, 8⟩

/-- Header and elements of a row, and where the elements start. -/
def row (elem : Layout) (len : Nat) : Except Fault (Layout × Nat) :=
  match (elem.array len).bind header.append with
  | some (whole, start) => .ok (whole.pad, start)
  | none => .error (.rowTooLarge len)

end Layout

/-! ### Addresses -/

/-- An allocation that holds a row. -/
structure Placed where
  base : Nat
  layout : Layout
  /-- The address of the first element. -/
  first : Nat
deriving DecidableEq, Repr

namespace Placed

/-- A row placed at an address. -/
def place (elem : Layout) (len base : Nat) : Except Fault Placed :=
  (elem.row len).map fun (layout, start) => ⟨base, layout, base + start⟩

/-- The address of the header, found from the first element without the number of elements. -/
def headerOf (elem : Layout) (first : Nat) : Except Fault Nat :=
  (elem.row 0).map fun (_, start) => first - start

/-- The allocation of a row, found from its first element and the number of elements. -/
def recover (elem : Layout) (len first : Nat) : Except Fault Placed :=
  (elem.row len).map fun (layout, start) => ⟨first - start, layout, first⟩

end Placed

end Endian
