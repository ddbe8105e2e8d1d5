import Endian.Proofs.Packed.Bits
import Endian.Proofs.Record.Transfer
import Endian.Proofs.Word.TwosComplement

/-!
# Displacements in narrow fields

A signed number is patched into a field that is narrower than its register and read back by sign
extension. Writing drops the bits that do not fit and reading fills them with zeros (`read_write`),
so what comes back is the signed number of the field's width that is congruent to the one written,
which is that one exactly if it is in range.
-/

namespace Endian

/-! ### Packed fields -/

/-- A field that lies in the word gives back the low bits of what was written into it. -/
theorem Packed.Field.get_put (f : Field) (h : f.shift + f.bits ≤ 32) (v : BitVec 32)
    (bs : Bytes 4) : f.get (f.put v bs) = (v.setWidth f.bits).setWidth 32 := by
  apply BitVec.eq_of_getLsbD_eq
  intro i hi
  rw [get_eq_extract, BitVec.getLsbD_setWidth, BitVec.getLsbD_setWidth, BitVec.getLsbD_extractLsb',
    BitVec.getLsbD_setWidth]
  by_cases hfield : i < f.bits
  · rw [f.getLsbD_put v bs (by omega), if_pos (by omega), Nat.add_sub_cancel_left]
  · simp [hfield]

/-! ### Narrow fields -/

/-- A place for numbers narrower than a register of 32 bits. -/
inductive NarrowField where
  | imm26
  | imm19
  | imm14
  /-- A record of three bytes. -/
  | three (o : ByteOrder)
deriving DecidableEq, Repr

namespace NarrowField

/-- Bytes of the word or record that the field is in. -/
def size : NarrowField → Nat
  | three _ => 3
  | _ => 4

def bits : NarrowField → Nat
  | imm26 => 26
  | imm19 => 19
  | imm14 => 14
  | three _ => 24

def write : (f : NarrowField) → BitVec 32 → Bytes f.size → Bytes f.size
  | imm26, v, bs => Packed.putImm26 v bs
  | imm19, v, bs => Packed.Field.imm19.put v bs
  | imm14, v, bs => Packed.Field.imm14.put v bs
  | three o, v, bs => Register.putThree o v bs

def read : (f : NarrowField) → Bytes f.size → BitVec 32
  | imm26, bs => Packed.Field.imm26.get bs
  | imm19, bs => Packed.Field.imm19.get bs
  | imm14, bs => Packed.Field.imm14.get bs
  | three o, bs => Register.ofThree o bs

variable (f : NarrowField)

theorem one_le_bits : 1 ≤ f.bits := by cases f <;> simp [bits]

theorem bits_le : f.bits ≤ 32 := by cases f <;> simp [bits]

theorem read_write (v : BitVec 32) (bs : Bytes f.size) :
    f.read (f.write v bs) = (v.setWidth f.bits).setWidth 32 := by
  cases f with
  | imm26 =>
    have himage := congrArg Packed.Field.imm26.get (Packed.Field.putImm26_eq_put v bs)
    exact himage.trans (Packed.Field.imm26.get_put (by decide) v bs)
  | imm19 => exact Packed.Field.imm19.get_put (by decide) v bs
  | imm14 => exact Packed.Field.imm14.get_put (by decide) v bs
  | three o =>
    apply BitVec.eq_of_toNat_eq
    rw [BitVec.toNat_setWidth_of_le (bits_le _), BitVec.toNat_setWidth]
    exact Width.w24.toNat_fetch_deposit o v bs

end NarrowField

/-! ### What comes back -/

/-- A reading gives the one signed number of `bits` bits that is congruent to `d` modulo
`2 ^ bits`, hence `d` itself exactly if `d` is such a number. -/
def Restores (bits : Nat) (d : Int) (reading : Except Fault Int) : Prop :=
  ∃ r : Int, reading = .ok r ∧
    (∀ s : Int, -2 ^ (bits - 1) ≤ s ∧ s < 2 ^ (bits - 1) ∧ s ≡ d [ZMOD 2 ^ bits] ↔ s = r) ∧
    (r = d ↔ -2 ^ (bits - 1) ≤ d ∧ d < 2 ^ (bits - 1))

theorem restores_bmod {bits : Nat} (hbits : 1 ≤ bits) (d : Int) :
    Restores bits d (.ok (d.bmod (2 ^ bits))) := by
  refine ⟨_, rfl, signed_iff_eq_bmod hbits d, ?_⟩
  have hself := signed_iff_eq_bmod hbits d d
  rw [eq_comm, ← hself]
  exact ⟨fun ⟨hlow, hhigh, _⟩ => ⟨hlow, hhigh⟩, fun ⟨hlow, hhigh⟩ => ⟨hlow, hhigh, rfl⟩⟩

/-- The low bits of a register have the residue of its signed number as well. -/
theorem signExtend_low {bits : Nat} (hbits : 1 ≤ bits) (h : bits ≤ 32) (d : Int32) :
    signExtend ((d.toBitVec.setWidth bits).setWidth 32) bits = .ok (d.toInt.bmod (2 ^ bits)) := by
  have hdvd : 2 ^ bits ∣ 2 ^ 32 := Nat.pow_dvd_pow 2 h
  have hnumber : (d.toBitVec.toNat : Int).bmod (2 ^ bits) = d.toInt.bmod (2 ^ bits) := by
    show _ = d.toBitVec.toInt.bmod (2 ^ bits)
    rw [BitVec.toInt_eq_toNat_bmod, Int.bmod_bmod_of_dvd hdvd]
  have hshift := signExtendShift_of_le (v := (d.toBitVec.setWidth bits).setWidth 32) hbits h
  rw [toInt_extendByShift_setWidth h, BitVec.toInt_setWidth, hnumber] at hshift
  exact hshift

/-- The signed number of three bytes is read from the register of their number. -/
theorem fetchSigned_three (o : ByteOrder) (bs : Bytes 3) :
    Width.w24.fetchSigned o bs = signExtend (Register.ofThree o bs) 24 :=
  congrArg (signExtend · 24) (BitVec.setWidth_eq _)

/-- A displacement that is written into a narrow field, over whatever was there, comes back by sign
extension as the signed number of the field's width in its residue class, and unchanged exactly if
it is in range. The signed reading of three bytes gives the same. -/
theorem displacement_survives (d : Int32) :
    (∀ (f : NarrowField) (bs : Bytes f.size),
      Restores f.bits d.toInt (signExtend (f.read (f.write d.toBitVec bs)) f.bits)) ∧
    ∀ (o : ByteOrder) (bs : Bytes 3),
      Restores 24 d.toInt (Width.w24.fetchSigned o (Register.putThree o d.toBitVec bs)) := by
  have hfield : ∀ (f : NarrowField) (bs : Bytes f.size),
      Restores f.bits d.toInt (signExtend (f.read (f.write d.toBitVec bs)) f.bits) := by
    intro f bs
    rw [f.read_write, signExtend_low f.one_le_bits f.bits_le]
    exact restores_bmod f.one_le_bits _
  refine ⟨hfield, fun o bs => ?_⟩
  have hsigned := fetchSigned_three o (Register.putThree o d.toBitVec bs)
  exact (congrArg (Restores 24 d.toInt) hsigned).mpr (hfield (.three o) bs)

/-- One bit too wide for the field of 14 bits, and the lowest number of three bytes. -/
example :
    signExtend (NarrowField.imm14.read (NarrowField.imm14.write 0x2000 #v[0, 0, 0, 0])) 14 =
        .ok (-0x2000) ∧
      Width.w24.fetchSigned .big (Register.putThree .big 0xFF800000 #v[1, 2, 3]) =
        .ok (-0x800000) := by decide

end Endian
