import Endian.Proofs.Buffer.Access
import Endian.Proofs.Buffer.Frame
import Mathlib

/-!
# Tables of fields

The fields of a table lie one behind another, each in a type and an order of its own. A table is
written at a cursor field by field and read back in the same way, every access in any of the forms
that suit its field.

The two halves meet in `Lies`: the bytes of the fields are in the buffer from a place on. Writing
leads there (`written_of_fits`), as a write leaves the bytes before its own alone, and reading from
there answers the values (`answered_of_lies`).
-/

namespace Endian

/-! ### The numbers of a type -/

namespace Scalar

def lowest (t : Scalar) : Int := if t.isSigned then -2 ^ (8 * t.size - 1) else 0

/-- The first number above those of a type. -/
def bound (t : Scalar) : Int := if t.isSigned then 2 ^ (8 * t.size - 1) else 2 ^ (8 * t.size)

/-- A number that a type can hold. -/
structure Value (t : Scalar) where
  toInt : Int
  lowest_le : t.lowest ≤ toInt
  lt_bound : toInt < t.bound

theorem toInt_ofInt {t : Scalar} (v : t.Value) : t.toInt (t.ofInt v.toInt) = v.toInt := by
  have hlow := v.lowest_le
  have hhigh := v.lt_bound
  have hpos := t.size_pos
  unfold lowest at hlow
  unfold bound at hhigh
  unfold toInt ofInt
  by_cases hs : t.isSigned
  · rw [if_pos hs] at hlow hhigh ⊢
    exact BitVec.toInt_ofInt_eq_self (by omega) hlow hhigh
  · rw [if_neg hs] at hlow hhigh ⊢
    have hspan : ((2 ^ (8 * t.size) : Nat) : Int) = 2 ^ (8 * t.size) := Int.natCast_pow 2 _
    rw [BitVec.toNat_ofInt, hspan, Int.emod_eq_of_lt hlow hhigh, Int.toNat_of_nonneg hlow]

end Scalar

namespace Cursor

/-! ### Fields -/

/-- A word in the buffer. -/
structure Cell where
  order : ByteOrder
  type : Scalar
  word : Word type.size

def Cell.size (k : Cell) : Nat := k.type.size

def Cell.bytes (k : Cell) : Bytes k.size := Word.store k.order k.word

inductive Field where
  | scalar (o : ByteOrder) (t : Scalar) (v : t.Value)
  /-- A field of four bytes if `large`, of two bytes otherwise. -/
  | sized (o : ByteOrder) (large : Bool) (v : BitVec 32)

namespace Field

def cell : Field → Cell
  | scalar o t v => ⟨o, t, t.ofInt v.toInt⟩
  | sized o true v => ⟨o, .uint32, v⟩
  | sized o false v => ⟨o, .uint16, v.setWidth 16⟩

/-- The number that a field gives back; two bytes hold it up to a multiple of their span. -/
def value : Field → Int
  | scalar _ _ v => v.toInt
  | sized _ true v => v.toNat
  | sized _ false v => v.toNat % 2 ^ 16

theorem toInt_word (f : Field) : f.cell.type.toInt f.cell.word = f.value := by
  cases f with
  | scalar o t v => exact Scalar.toInt_ofInt v
  | sized o large v =>
    cases large with
    | true => rfl
    | false =>
      show ((v.setWidth 16).toNat : Int) = _
      rw [BitVec.toNat_setWidth]
      rfl

end Field

/-- The cell that a write at the cursor stores. -/
def Step.stored? : Step → Option Cell
  | .write o t v => some ⟨o, t, v⟩
  | .writeStatic o t v => some ⟨o, t, v⟩
  | .writeSized o true v => some ⟨o, .uint32, v⟩
  | .writeSized o false v => some ⟨o, .uint16, v.setWidth 16⟩
  | _ => none

/-- The order and type of a read at the cursor. -/
def Step.loaded? : Step → Option (ByteOrder × Scalar)
  | .read o t => some (o, t)
  | .readStatic o t => some (o, t)
  | .readSized o large => some (o, if large then .uint32 else .uint16)
  | _ => none

/-- The number that a reply gives back. -/
def Reply.number? : Reply → Option Int
  | .value t v => some (t.toInt v)
  | .sized v => some v.toNat
  | _ => none

namespace Field

variable (f : Field)

def WrittenBy (s : Step) : Prop := s.stored? = some f.cell

def ReadBy (s : Step) : Prop := s.loaded? = some (f.cell.order, f.cell.type)

/-- An entry of a run gives the field back. -/
def AnsweredBy (e : Cursor × Reply) : Prop := e.2.number? = some f.value

end Field

/-- Bytes of a table. -/
def width (fs : List Field) : Nat := (fs.map fun f => f.cell.size).sum

theorem width_cons (f : Field) (fs : List Field) : width (f :: fs) = f.cell.size + width fs := by
  rw [width, List.map_cons, List.sum_cons]
  rfl

/-! ### One access -/

section Accesses

variable {c : Cursor} {s : Step} {f : Field}

theorem step_of_stored {k : Cell} (h : s.stored? = some k) :
    c.step s = c.perform (fun _ => .written) (write k.order k.type k.word) := by
  cases s with
  | write o t v =>
    cases h
    rfl
  | writeStatic o t v =>
    cases h
    cases o <;> rfl
  | writeSized o large v => cases large <;> cases h <;> rfl
  | _ => cases h

theorem step_of_loaded {o : ByteOrder} {t : Scalar} (h : s.loaded? = some (o, t)) :
    ∃ reply : Word t.size → Reply, c.step s = c.perform reply (read o t) ∧
      ∀ w, (reply w).number? = some (t.toInt w) := by
  cases s with
  | read o t =>
    cases h
    exact ⟨.value t, rfl, fun _ => rfl⟩
  | readStatic o t =>
    cases h
    exact ⟨.value t, by cases o <;> rfl, fun _ => rfl⟩
  | readSized o large =>
    cases large with
    | true =>
      cases h
      exact ⟨.sized, rfl, fun _ => rfl⟩
    | false =>
      cases h
      refine ⟨.sized ∘ BitVec.setWidth 32, c.step_readSized_false o, fun w => ?_⟩
      show some (((w.setWidth 32).toNat : Nat) : Int) = some (w.toNat : Int)
      rw [BitVec.toNat_setWidth_of_le (by decide)]
  | _ => cases h

theorem step_of_writtenBy (h : f.WrittenBy s)
    (hfit : c.offset.toNat + f.cell.size ≤ c.buffer.bytes.size) :
    c.step s = (⟨c.buffer.replace c.offset.toNat f.cell.bytes hfit,
      (c.advance f.cell.size).offset⟩, .written) := by
  rw [step_of_stored h, perform_of_run (write_of_le hfit)]
  rfl

theorem step_of_readBy (h : f.ReadBy s)
    {hfit : c.offset.toNat + f.cell.size ≤ c.buffer.bytes.size}
    (hlies : bytesAt c.buffer.bytes c.offset.toNat f.cell.size hfit = f.cell.bytes) :
    ∃ reply, c.step s = (c.advance f.cell.size, reply) ∧ reply.number? = some f.value := by
  obtain ⟨reply, hstep, hnumber⟩ := step_of_loaded (c := c) h
  have hload : Word.load f.cell.order (bytesAt c.buffer.bytes c.offset.toNat f.cell.size hfit)
      = f.cell.word := by
    rw [hlies]
    exact Word.load_store _ _
  refine ⟨reply f.cell.word, ?_, ?_⟩
  · rw [hstep, perform_of_run (read_of_le hfit)]
    exact congrArg (fun w => (c.advance f.cell.size, reply w)) hload
  · rw [hnumber, f.toInt_word]

end Accesses

/-! ### Whole tables -/

/-- The bytes of the fields are in the data from a place on. -/
inductive Lies (data : Array UInt8) : Nat → List Field → Prop where
  | nil (p : Nat) : Lies data p []
  | cons {p : Nat} {f : Field} {fs : List Field} (h : p + f.cell.size ≤ data.size) :
      bytesAt data p f.cell.size h = f.cell.bytes → Lies data (p + f.cell.size) fs →
      Lies data p (f :: fs)

/-- What writing a table leaves. -/
structure Written (c : Cursor) (fs : List Field) (ws : List Step) : Prop where
  replies : ∀ e ∈ c.run ws, e.2 = .written
  offset : (c.final ws).offset.toNat = c.offset.toNat + width fs
  size : (c.final ws).buffer.bytes.size = c.buffer.bytes.size
  before : ∀ i < c.offset.toNat, (c.final ws).buffer.bytes[i]? = c.buffer.bytes[i]?
  lies : Lies (c.final ws).buffer.bytes c.offset.toNat fs

theorem written_of_fits {c : Cursor} {fs : List Field} {ws : List Step}
    (hw : List.Forall₂ Field.WrittenBy fs ws)
    (hfit : c.offset.toNat + width fs ≤ c.buffer.bytes.size) : Written c fs ws := by
  induction hw generalizing c with
  | nil =>
    refine ⟨?_, rfl, rfl, fun _ _ => rfl, .nil _⟩
    rintro e he
    cases he
  | @cons f s fs ws hs _ ih =>
    rw [width_cons] at hfit
    have hf : c.offset.toNat + f.cell.size ≤ c.buffer.bytes.size := by omega
    have hstep := step_of_writtenBy hs hf
    have hoff : (c.step s).1.offset.toNat = c.offset.toNat + f.cell.size := by
      rw [hstep]
      exact toNat_advance hf
    have hsize : (c.step s).1.buffer.bytes.size = c.buffer.bytes.size := by
      rw [hstep]
      exact Buffer.size_replace _ _ _ hf
    have hrest : Written (c.step s).1 fs ws := ih (by omega)
    have hfinal : (c.final (s :: ws)).buffer.bytes.size = c.buffer.bytes.size := by
      rw [final_cons, hrest.size, hsize]
    refine ⟨?_, ?_, hfinal, ?_, ?_⟩
    · rintro e he
      rcases List.mem_cons.1 he with rfl | he
      · rw [hstep]
      · exact hrest.replies e he
    · rw [final_cons, hrest.offset, hoff, width_cons, Nat.add_assoc]
    · intro i hi
      rw [final_cons, hrest.before i (by omega), hstep]
      exact c.buffer.getElem?_replace_of_lt _ _ hf hi
    · refine .cons (by omega) ?_ ?_
      · -- the later writes start behind this field
        have hkept : ∀ i, c.offset.toNat ≤ i → i < c.offset.toNat + f.cell.size →
            (c.final (s :: ws)).buffer.bytes[i]? = (c.step s).1.buffer.bytes[i]? := by
          intro i _ hi
          rw [final_cons, hrest.before i (by omega)]
        have hself : c.offset.toNat + f.cell.size ≤ (c.step s).1.buffer.bytes.size := by omega
        rw [bytesAt_congr _ hself hkept]
        simp only [hstep]
        exact c.buffer.bytesAt_replace_self _ _ hf _
      · have hlies := hrest.lies
        rw [hoff] at hlies
        rw [final_cons]
        exact hlies

theorem answered_of_lies {c : Cursor} {fs : List Field} {rs : List Step}
    (hr : List.Forall₂ Field.ReadBy fs rs) (hlies : Lies c.buffer.bytes c.offset.toNat fs) :
    List.Forall₂ Field.AnsweredBy fs (c.run rs) ∧ (c.final rs).buffer = c.buffer ∧
      (c.final rs).offset.toNat = c.offset.toNat + width fs := by
  induction hr generalizing c with
  | nil => exact ⟨.nil, rfl, rfl⟩
  | @cons f s fs rs hs _ ih =>
    cases hlies with
    | cons hf hbytes hrest =>
      obtain ⟨reply, hstep, hnumber⟩ := step_of_readBy hs hbytes
      have hoff : (c.step s).1.offset.toNat = c.offset.toNat + f.cell.size := by
        rw [hstep]
        exact toNat_advance hf
      have hbuf : (c.step s).1.buffer = c.buffer := by
        rw [hstep]
        rfl
      obtain ⟨hans, hb, ho⟩ := ih (c := (c.step s).1) (by rw [hoff, hbuf]; exact hrest)
      refine ⟨.cons ?_ hans, ?_, ?_⟩
      · show (c.step s).2.number? = _
        rw [hstep, hnumber]
      · rw [final_cons, hb, hbuf]
      · rw [final_cons, ho, hoff, width_cons, Nat.add_assoc]

theorem eq_of_toNat {c c' : Cursor} (hb : c.buffer = c'.buffer)
    (ho : c.offset.toNat = c'.offset.toNat) : c = c' := by
  obtain ⟨b, p⟩ := c
  obtain ⟨b', p'⟩ := c'
  have hp : p = p' := UInt64.toNat_inj.mp ho
  subst hp
  exact congrArg (Cursor.mk · p) hb

/-- A table that fits is written without failure, and reading it back from where it starts gives
every number and leads to where the writing ended. -/
theorem table_roundtrip {c : Cursor} {fs : List Field} {ws rs : List Step}
    (hw : List.Forall₂ Field.WrittenBy fs ws) (hr : List.Forall₂ Field.ReadBy fs rs)
    (hfit : c.offset.toNat + width fs ≤ c.buffer.size) :
    (∀ e ∈ c.run ws, e.2 = .written) ∧
      (c.final ws).offset.toNat = c.offset.toNat + width fs ∧
      List.Forall₂ Field.AnsweredBy fs (run ⟨(c.final ws).buffer, c.offset⟩ rs) ∧
      final ⟨(c.final ws).buffer, c.offset⟩ rs = c.final ws := by
  have hwritten := written_of_fits hw hfit
  obtain ⟨hans, hbuf, hoff⟩ :=
    answered_of_lies (c := ⟨(c.final ws).buffer, c.offset⟩) hr hwritten.lies
  exact ⟨hwritten.replies, hwritten.offset, hans, eq_of_toNat hbuf (by rw [hoff, hwritten.offset])⟩

/-- A negative number, and a field of two bytes that drops the high half of its number. -/
def pair : List Field :=
  [.scalar .big .int16 ⟨-2, by decide, by decide⟩, .sized .little false 0x12345]

def pairWrites : List Step :=
  [.write .big .int16 (Scalar.int16.ofInt (-2)), .writeSized .little false 0x12345]

def pairReads : List Step := [.readStatic .big .int16, .read .little .uint16]

theorem table_roundtrip_pair :
    let c : Cursor := ⟨⟨#[1, 2, 3, 4, 5, 6], by decide⟩, 1⟩
    pair.map Field.value = [-2, 0x2345] ∧
      (c.final pairWrites).buffer.bytes = #[1, 255, 254, 69, 35, 6] ∧
      List.Forall₂ Field.AnsweredBy pair (run ⟨(c.final pairWrites).buffer, 1⟩ pairReads) := by
  intro c
  have hw : List.Forall₂ Field.WrittenBy pair pairWrites := .cons rfl (.cons rfl .nil)
  have hr : List.Forall₂ Field.ReadBy pair pairReads := .cons rfl (.cons rfl .nil)
  have hback := table_roundtrip (c := c) hw hr (by decide)
  exact ⟨by decide, by decide, hback.2.2.1⟩

end Cursor

end Endian
