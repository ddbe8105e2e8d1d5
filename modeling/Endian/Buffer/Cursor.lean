import Endian.Buffer.Basic
import Endian.Buffer.Scalar
import Endian.Policy.Basic
import Endian.Word.Order

/-!
# Cursors

A `Cursor` is a buffer with a position in it. An `Access` works at a cursor line by line, and the
cursor stays as the lines before have made it where one of them fails.

- `read_of_le`, `read_of_lt`, `write_of_le`, `write_of_lt`: when an access succeeds, and what it
  leaves. An access that does not fit has changed neither buffer nor position, and the sum of
  position and size never overflows.
- `readAll`: reads scalars of one type until a field does not fit.
-/

namespace Endian

structure Cursor where
  buffer : Buffer
  offset : Position
deriving DecidableEq

namespace Cursor

def start (b : Buffer) : Cursor := ⟨b, 0⟩

/-! ### Work at a cursor -/

/-- Work that reads and changes a cursor and may fail halfway. -/
abbrev Access (α : Type) := ExceptT Failure (StateM Cursor) α

namespace Access

variable {α β : Type}

/-- What an access answers, and the cursor that it leaves. -/
def run (m : Access α) (c : Cursor) : Except Failure α × Cursor := StateT.run (ExceptT.run m) c

/-- The value, or the end of the access with an error. -/
def ofError : Except Error α → Access α
  | .ok a => pure a
  | .error e => throw (.error e)

/-- The value, or the end of the access with a fault. -/
def ofFault : Except Fault α → Access α
  | .ok a => pure a
  | .error f => throw (.fault f)

theorem run_bind_of_ok {m : Access α} {k : α → Access β} {c c' : Cursor} {a : α}
    (h : m.run c = (.ok a, c')) : (m >>= k).run c = (k a).run c' := by
  show (match m.run c with | (r, c') => ExceptT.bindCont k r c') = _
  rw [h]
  rfl

/-- What comes behind a failure is not done. -/
theorem run_bind_of_error {m : Access α} {k : α → Access β} {c c' : Cursor} {f : Failure}
    (h : m.run c = (.error f, c')) : (m >>= k).run c = (.error f, c') := by
  show (match m.run c with | (r, c') => ExceptT.bindCont k r c') = _
  rw [h]
  rfl

end Access

open Access

/-! ### Scalars -/

/-- The field of `n` bytes at the cursor. -/
def field (n : Nat) : Access (Bytes n) := do
  let c ← get
  ofError (c.buffer.field c.offset n)

/-- Moves behind a field of `n` bytes. -/
def skip (n : Nat) : Access Unit := do
  let c ← get
  let stop ← ofFault (Position.checkedAdd c.offset (UInt64.ofNat n))
  set { c with offset := stop }

/-- Puts `bs` in place of the field at the cursor and moves behind it. -/
def store {n : Nat} (bs : Bytes n) : Access Unit := do
  let c ← get
  let stop ← ofError (Buffer.fieldEnd c.offset n)
  if h : c.offset.toNat + n ≤ c.buffer.bytes.size then
    set { c with buffer := c.buffer.replace c.offset.toNat bs h }
    modify fun c => { c with offset := stop }
  else throw (.error .outOfBounds)

/-- The scalar at the cursor, in the given order. -/
def read (o : ByteOrder) (t : Scalar) : Access (Word t.size) := do
  let bs ← field t.size
  skip t.size
  return Word.load o bs

/-- Replaces the scalar at the cursor, in the given order. -/
def write (o : ByteOrder) (t : Scalar) (v : Word t.size) : Access Unit := store (Word.store o v)

/-- The scalar at the cursor, in the order chosen by `P`. -/
def readAs (P : Type) [StaticPolicy P] (t : Scalar) : Access (Word t.size) :=
  read (StaticPolicy.order P) t

/-- Replaces the scalar at the cursor, in the order chosen by `P`. -/
def writeAs (P : Type) [StaticPolicy P] (t : Scalar) (v : Word t.size) : Access Unit :=
  write (StaticPolicy.order P) t v

/-! ### Fields of two sizes -/

/-- A field of four bytes if `large`, of two bytes otherwise. -/
def readSized (o : ByteOrder) (large : Bool) : Access (BitVec 32) := do
  if large then read o .uint32 else return (← read o .uint16).setWidth 32

/-- Replaces a field of four bytes if `large`, of two bytes otherwise; the high half of `v` is
dropped if it does not fit. -/
def writeSized (o : ByteOrder) (large : Bool) (v : BitVec 32) : Access Unit :=
  if large then write o .uint32 v else write o .uint16 (v.setWidth 16)

/-! ### What an access leaves -/

theorem toNat_ofNat_size (t : Scalar) : (UInt64.ofNat t.size).toNat = t.size := by
  cases t <;> rfl

/-- The cursor behind a field of `n` bytes. -/
def advance (c : Cursor) (n : Nat) : Cursor := ⟨c.buffer, c.offset + UInt64.ofNat n⟩

section

variable {c : Cursor} {o : ByteOrder} {t : Scalar}

theorem toNat_advance (h : c.offset.toNat + t.size ≤ c.buffer.bytes.size) :
    (c.advance t.size).offset.toNat = c.offset.toNat + t.size := by
  have hb := c.buffer.size_lt
  rw [advance, Position.toNat_add_of_lt (by rw [toNat_ofNat_size]; omega), toNat_ofNat_size]

theorem run_field {n : Nat} {r : Except Error (Bytes n)} (h : c.buffer.field c.offset n = r) :
    (field n).run c = (r.mapError .error, c) := by
  show (ofError (c.buffer.field c.offset n)).run c = _
  rw [h]
  cases r <;> rfl

theorem run_skip {n : Nat} (h : c.offset.toNat + (UInt64.ofNat n).toNat < UInt64.size) :
    (skip n).run c = (.ok (), c.advance n) := by
  show (ofFault (Position.checkedAdd c.offset (UInt64.ofNat n)) >>= _).run c = _
  rw [Position.checkedAdd_of_lt h]
  rfl

theorem read_of_le (h : c.offset.toNat + t.size ≤ c.buffer.bytes.size) :
    (read o t).run c =
      (.ok (Word.load o (bytesAt c.buffer.bytes c.offset.toNat t.size h)), c.advance t.size) := by
  have hb := c.buffer.size_lt
  have hskip : (skip t.size).run c = (.ok (), c.advance t.size) :=
    run_skip (by rw [toNat_ofNat_size]; omega)
  rw [read, run_bind_of_ok (run_field (Buffer.field_of_le h)), run_bind_of_ok hskip]
  rfl

theorem read_of_lt (h : c.buffer.bytes.size < c.offset.toNat + t.size) :
    (read o t).run c = (.error (.error .outOfBounds), c) := by
  rw [read, run_bind_of_error (run_field (Buffer.field_of_lt h))]

theorem write_of_le {v : Word t.size} (h : c.offset.toNat + t.size ≤ c.buffer.bytes.size) :
    (write o t v).run c = (.ok (), ⟨c.buffer.replace c.offset.toNat (Word.store o v) h,
      c.offset + UInt64.ofNat t.size⟩) := by
  show (ofError (Buffer.fieldEnd c.offset t.size) >>= _).run c = _
  rw [Buffer.fieldEnd_of_le c.buffer.size_lt h]
  show Access.run (dite _ _ _) c = _
  rw [dif_pos h]
  rfl

theorem write_of_lt {v : Word t.size} (h : c.buffer.bytes.size < c.offset.toNat + t.size) :
    (write o t v).run c = (.error (.error .outOfBounds), c) := by
  show (ofError (Buffer.fieldEnd c.offset t.size) >>= _).run c = _
  unfold Buffer.fieldEnd
  split
  · show Access.run (dite _ _ _) c = _
    rw [dif_neg (Nat.not_le.2 h)]
    rfl
  · rfl

/-! ### To the end -/

theorem read_shrinks {c' : Cursor} {v : Word t.size} (h : (read o t).run c = (.ok v, c')) :
    c'.buffer.bytes.size - c'.offset.toNat < c.buffer.bytes.size - c.offset.toNat := by
  rcases Nat.lt_or_ge c.buffer.bytes.size (c.offset.toNat + t.size) with hlt | hle
  · rw [read_of_lt hlt] at h
    cases h
  · rw [read_of_le hle] at h
    injection h with _ h
    have hpos := t.size_pos
    rw [← h, toNat_advance hle]
    simp only [advance]
    omega

end

/-- The scalars up to the first field that does not fit, and the cursor that the failed read leaves. -/
def readAll (o : ByteOrder) (t : Scalar) (c : Cursor) : List (Word t.size) × Cursor :=
  match h : (read o t).run c with
  | (.error _, c') => ([], c')
  | (.ok v, c') =>
    have := read_shrinks h
    let (vs, last) := readAll o t c'
    (v :: vs, last)
termination_by c.buffer.bytes.size - c.offset.toNat

end Cursor

/-! ### At the start of a buffer -/

namespace Buffer

/-- The scalar at the start. -/
def read (b : Buffer) (o : ByteOrder) (t : Scalar) : Except Failure (Word t.size) :=
  ((Cursor.read o t).run (.start b)).1

/-- Replaces the scalar at the start. -/
def write (b : Buffer) (o : ByteOrder) (t : Scalar) (v : Word t.size) : Except Failure Unit × Buffer :=
  let (r, c) := (Cursor.write o t v).run (.start b)
  (r, c.buffer)

end Buffer

end Endian
