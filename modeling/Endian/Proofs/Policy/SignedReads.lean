import Endian.Proofs.Policy.Agreement
import Endian.Proofs.Record.Transfer
import Endian.Proofs.Word.TwosComplement

/-!
# Signed reads agree

A signed number is read from its bytes in several ways. Records, tagged integers and policies
extend the sign of a number in a register of 32 or 64 bits; a buffer gives the word of the type
itself, whose top bit is the sign. `ReadsSigned` collects the ways, and each of them gives the
signed value of the number that the bytes write (`readsSigned_number`). A signed number that is
written to a buffer leaves bytes with that value (`readsSigned_bytes`).
-/

namespace Endian

variable {o : ByteOrder} {t : Scalar}

/-! ### The ways to read and write -/

/-- Every way to read a signed number of type `t` gives `x` where the bytes are `bs`. -/
structure ReadsSigned (o : ByteOrder) (t : Scalar) (bs : Bytes t.width.size) (x : Int) : Prop where
  record : t.width.fetchSigned o bs = .ok x
  tagged : (⟨bs⟩ : Tagged o t.width.size).getSigned = x
  policy : ∀ r : Policy.Route, r.answer o (.getSigned t.width bs) = .signed t.width x
  cursor : Cursor.Gives o t bs x
  start : ∀ b : Buffer, b.field 0 t.width.size = .ok bs → (b.read o t).map t.toInt = .ok x

/-- Every way to write a number of type `t` succeeds where a buffer has room and leaves `bs`. -/
structure WritesSigned (o : ByteOrder) {t : Scalar} (v : t.Value) (bs : Bytes t.width.size) :
    Prop where
  cursor : ∀ (c : Cursor) (s : Cursor.Step), s.stored? = some ⟨o, t, t.ofInt v.toInt⟩ →
    c.offset.toNat + t.size ≤ c.buffer.size →
      (c.step s).2 = .written ∧ (c.step s).1.buffer.field c.offset t.width.size = .ok bs
  start : ∀ b : Buffer, t.size ≤ b.size →
    ∃ b', b.write o t (t.ofInt v.toInt) = (.ok (), b') ∧ b'.field 0 t.width.size = .ok bs

/-! ### The start of a buffer -/

namespace Cursor

variable {n : Nat} {bs : Bytes n} {b : Buffer}

/-- The start of a buffer is read as at a cursor there. -/
theorem Gives.start {x : Int} (h : Gives o t bs x) (hb : b.field 0 n = .ok bs) :
    (b.read o t).map t.toInt = .ok x := by
  have hstep : (Reply.of (.value t) (b.read o t)).number? = some x :=
    h (Cursor.start b) (.read o t) rfl hb
  cases hread : b.read o t with
  | error f =>
    rw [hread] at hstep
    cases hstep
  | ok w =>
    rw [hread] at hstep
    exact congrArg Except.ok (Option.some.inj hstep)

/-- The start of a buffer is written as at a cursor there. -/
theorem Leaves.start {x : Nat} {w : Word t.size} (h : Leaves o t x bs) (hw : w.toNat = x)
    (hfit : n ≤ b.size) : ∃ b', b.write o t w = (.ok (), b') ∧ b'.field 0 n = .ok bs := by
  have hroom : (Cursor.start b).offset.toNat + n ≤ b.size := by
    rw [Cursor.start, UInt64.toNat_zero, Nat.zero_add]
    exact hfit
  obtain ⟨hwritten, hfield⟩ := h (Cursor.start b) (.write o t w) w hw rfl hroom
  refine ⟨(b.write o t w).2, Prod.ext ?_ rfl, hfield⟩
  have hreply : Reply.of (fun _ => .written) (b.write o t w).1 = .written := hwritten
  cases hwrite : (b.write o t w).1 with
  | error f =>
    rw [hwrite] at hreply
    cases hreply
  | ok _ => rfl

end Cursor

/-! ### Agreement -/

theorem signedValue_eq_bmod {n x : Nat} (hx : x < digitSpan n) :
    signedValue n x = (x : Int).bmod (2 ^ (8 * n)) := by
  have hword := Word.toInt_eq_signedValue (BitVec.ofNat (8 * n) x : Word n)
  rw [Word.toNat_ofNat hx] at hword
  rw [← hword, BitVec.toInt_eq_toNat_bmod, Word.toNat_ofNat hx]

section Signed

variable (hs : t.isSigned = true)
include hs

theorem Scalar.interpret_of_isSigned (x : Nat) : t.interpret x = signedValue t.width.size x := by
  rw [interpret, if_pos hs, t.size_width]

theorem readsSigned_number (bs : Bytes t.width.size) :
    ReadsSigned o t bs (signedValue t.width.size (o.number bs.toList)) := by
  have hgives := Cursor.gives_interpret (o := o) bs t.size_width
  rw [Scalar.interpret_of_isSigned hs] at hgives
  refine ⟨?_, ?_, fun r => r.answer_eq _, hgives, fun b hb => hgives.start hb⟩
  · rw [Width.fetchSigned_eq, Width.getSigned_eq]
  · rw [Tagged.getSigned_record, Width.getSigned_eq]

/-- Writing a signed number leaves bytes that stand for it. -/
theorem readsSigned_bytes (v : t.Value) :
    ∃ bs, WritesSigned o v bs ∧ ReadsSigned o t bs v.toInt := by
  have hlen : (o.digits t.size (t.ofInt v.toInt).toNat).toArray.size = t.width.size := by
    rw [List.size_toArray, o.length_digits, t.size_width]
  obtain ⟨bs, hbs⟩ : ∃ bs : Bytes t.width.size,
      bs.toList = o.digits t.size (t.ofInt v.toInt).toNat := ⟨⟨_, hlen⟩, rfl⟩
  have hleaves := Cursor.leaves_digits bs t.size_width hbs
  have hreads := readsSigned_number (o := o) hs bs
  rw [hbs, o.number_digits, Nat.mod_eq_of_lt (Word.toNat_lt _), ← Scalar.interpret_of_isSigned hs,
    ← Scalar.toInt_eq_interpret, Scalar.toInt_ofInt] at hreads
  refine ⟨bs, ⟨fun c s hstored hfit => ?_, fun b hfit => ?_⟩, hreads⟩
  · exact hleaves c s _ rfl hstored (t.size_width.symm ▸ hfit)
  · exact hleaves.start rfl (t.size_width.symm ▸ hfit)

end Signed

/-- All ways to read a signed number give the two's-complement value of the unsigned number in the
same bytes, and all of them give back every signed number that was written to a buffer. -/
theorem signed_reads_agree (o : ByteOrder) {t : Scalar} (hs : t.isSigned = true) :
    (∀ bs : Bytes t.width.size, ∃ x : Int,
      (∀ s : Int, TwosComplement t.width.bits (t.width.fetch o bs).toNat s ↔ s = x) ∧
        ReadsSigned o t bs x) ∧
    ∀ v : t.Value, ∃ bs, WritesSigned o v bs ∧ ReadsSigned o t bs v.toInt := by
  refine ⟨fun bs => ⟨_, fun s => ?_, readsSigned_number hs bs⟩, readsSigned_bytes hs⟩
  have hpos : 1 ≤ t.width.bits := by cases t <;> decide
  have hlt : o.number bs.toList < digitSpan t.width.size := by
    simpa using o.number_lt bs.toList
  rw [twosComplement_iff hpos, t.width.toNat_fetch, signedValue_eq_bmod hlt]
  rfl

/-- The number -2 in two bytes. -/
theorem signed_reads_agree_minus_two :
    Scalar.int16.isSigned = true ∧
      ReadsSigned .big .int16 (#v[0xFF, 0xFE] : Bytes 2) (-2) ∧
      ∃ bs, WritesSigned .little (⟨-2, by decide, by decide⟩ : Scalar.int16.Value) bs ∧
        ReadsSigned .little .int16 bs (-2) := by
  have hs : Scalar.int16.isSigned = true := rfl
  obtain ⟨x, hx, hreads⟩ := (signed_reads_agree .big hs).1 (#v[0xFF, 0xFE] : Bytes 2)
  have htwo : (-2 : Int) = x := (hx (-2)).1 (by decide)
  exact ⟨hs, htwo ▸ hreads, (signed_reads_agree .little hs).2 ⟨-2, by decide, by decide⟩⟩

end Endian
