import Endian.Buffer.Cursor

/-!
# Runs of accesses

Sequences of reads, writes and seeks with one cursor. An access to the start of the buffer has a
position of its own; every other one goes on from the cursor that the step before it left, whether
that step failed or not.
-/

namespace Endian.Cursor

inductive Step where
  | readStart (o : ByteOrder) (t : Scalar)
  | read (o : ByteOrder) (t : Scalar)
  /-- In an order chosen by type. -/
  | readStatic (o : ByteOrder) (t : Scalar)
  | readSized (o : ByteOrder) (large : Bool)
  | writeStart (o : ByteOrder) (t : Scalar) (v : Word t.size)
  | write (o : ByteOrder) (t : Scalar) (v : Word t.size)
  /-- In an order chosen by type. -/
  | writeStatic (o : ByteOrder) (t : Scalar) (v : Word t.size)
  | writeSized (o : ByteOrder) (large : Bool) (v : BitVec 32)
  | seek (p : Position)

inductive Reply where
  | moved
  | failed (f : Failure)
  | value (t : Scalar) (v : Word t.size)
  /-- The value of a field of two or four bytes. -/
  | sized (v : BitVec 32)
  | written
deriving DecidableEq

/-- The reply to an answer. -/
def Reply.of {α : Type} (reply : α → Reply) : Except Failure α → Reply
  | .ok a => reply a
  | .error f => .failed f

variable (c : Cursor)

/-- The cursor that an access leaves, and its reply. -/
def perform {α : Type} (reply : α → Reply) (m : Access α) : Cursor × Reply :=
  let (r, c') := m.run c
  (c', .of reply r)

theorem perform_of_run {α : Type} {reply : α → Reply} {m : Access α} {c c' : Cursor}
    {r : Except Failure α} (h : m.run c = (r, c')) : c.perform reply m = (c', .of reply r) := by
  rw [perform, h]

theorem perform_bind_pure {α β : Type} (reply : β → Reply) (m : Access α) (f : α → β) :
    (c.perform reply do return f (← m)) = c.perform (reply ∘ f) m := by
  cases h : m.run c with
  | mk r c' =>
    have hrun : (do return f (← m) : Access β).run c = (r.map f, c') := by
      cases r with
      | ok a => exact Access.run_bind_of_ok h
      | error e => exact Access.run_bind_of_error h
    rw [perform_of_run h, perform_of_run hrun]
    cases r <;> rfl

def step : Step → Cursor × Reply
  | .readStart o t => (c, .of (.value t) (c.buffer.read o t))
  | .read o t => c.perform (.value t) (read o t)
  | .readStatic .big t => c.perform (.value t) (readAs BigEndian t)
  | .readStatic .little t => c.perform (.value t) (readAs LittleEndian t)
  | .readSized o large => c.perform .sized (readSized o large)
  | .writeStart o t v =>
    let (r, b) := c.buffer.write o t v
    ({ c with buffer := b }, .of (fun _ => .written) r)
  | .write o t v => c.perform (fun _ => .written) (write o t v)
  | .writeStatic .big t v => c.perform (fun _ => .written) (writeAs BigEndian t v)
  | .writeStatic .little t v => c.perform (fun _ => .written) (writeAs LittleEndian t v)
  | .writeSized o large v => c.perform (fun _ => .written) (writeSized o large v)
  | .seek p => ({ c with offset := p }, .moved)

theorem step_readSized_false (o : ByteOrder) :
    c.step (.readSized o false) = c.perform (.sized ∘ BitVec.setWidth 32) (read o .uint16) :=
  c.perform_bind_pure .sized (read o .uint16) (BitVec.setWidth 32)

/-- The cursors and replies after each of the steps. -/
def run (c : Cursor) : List Step → List (Cursor × Reply)
  | [] => []
  | s :: ss => c.step s :: run (c.step s).1 ss

end Endian.Cursor
