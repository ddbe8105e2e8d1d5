import Endian.Failure

/-!
# Sign extension

The low `bits` bits of a word, read as a two's-complement number. `signExtendShift` moves the field
to the top and back with an arithmetic shift; `signExtendMask` subtracts the sign bit from the bits
below it. Both refuse a field that is empty or wider than the word; this check is an assertion for
debugging, and the build described here is one that makes it.
-/

namespace Endian

variable {w : Nat}

/-- The field moved to the top of the word and back. -/
def extendByShift (bits : Nat) (v : BitVec w) : BitVec w :=
  (v <<< (w - bits)).sshiftRight (w - bits)

/-- The bits below the sign bit, less the sign bit. -/
def extendByMask (bits : Nat) (v : BitVec w) : BitVec w :=
  let sign := 1#w <<< (bits - 1)
  (v &&& (sign - 1#w)) - (v &&& sign)

/-- A field has at least one bit and fits into the word. Only a build with debug assertions checks it. -/
def checkField (w bits : Nat) : Except Fault Unit :=
  if 1 ≤ bits ∧ bits ≤ w then .ok () else .error (.fieldWidth w)

def signExtendShift (v : BitVec w) (bits : Nat) : Except Fault Int := do
  checkField w bits
  return (extendByShift bits v).toInt

def signExtendMask (v : BitVec w) (bits : Nat) : Except Fault Int := do
  checkField w bits
  return (extendByMask bits v).toInt

/-- The form that a host with a barrel shifter uses. -/
def signExtend (v : BitVec w) (bits : Nat) : Except Fault Int := signExtendShift v bits

theorem signExtendShift_of_le {v : BitVec w} {bits : Nat} (h1 : 1 ≤ bits) (hw : bits ≤ w) :
    signExtendShift v bits = .ok (extendByShift bits v).toInt := by
  simp [signExtendShift, checkField, h1, hw, bind, Except.bind, pure, Except.pure]

theorem signExtendShift_eq_error_iff {v : BitVec w} {bits : Nat} {f : Fault} :
    signExtendShift v bits = .error f ↔ ¬ (1 ≤ bits ∧ bits ≤ w) ∧ f = .fieldWidth w := by
  unfold signExtendShift checkField
  split <;> simp_all [bind, Except.bind, pure, Except.pure, eq_comm]

end Endian
