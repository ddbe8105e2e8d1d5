import Endian.Word.Order

/-!
# Fields packed into a word

Instruction words carry numbers in a few of their bits. A `Field` names these bits in the
little-endian word of four bytes; reading takes them out, writing keeps the others and drops what
does not fit.

- `Field.put` decodes the word, replaces the bits and encodes it again.
- `putImm26` works on the host's memory image with mask and value in the word's order, and never
  decodes the word.
- `Edit.run` applies a sequence of edits.
-/

namespace Endian.Packed

/-- `bits` bits of a word from bit `shift` upwards. -/
structure Field where
  shift : Nat
  bits : Nat
deriving DecidableEq, Repr

namespace Field

def imm26 : Field := ⟨0, 26⟩
def imm19 : Field := ⟨5, 19⟩
def imm14 : Field := ⟨5, 14⟩

/-- As many ones as the field has bits. -/
def mask (f : Field) : BitVec 32 := (BitVec.allOnes f.bits).setWidth 32

def get (f : Field) (bs : Bytes 4) : BitVec 32 := (Word.load .little bs >>> f.shift) &&& f.mask

def put (f : Field) (v : BitVec 32) (bs : Bytes 4) : Bytes 4 :=
  Word.store .little ((Word.load .little bs &&& ~~~(f.mask <<< f.shift)) ||| ((v &&& f.mask) <<< f.shift))

end Field

/-- Writes the 26-bit field on the memory image, with mask and value in little-endian order. -/
def putImm26 (v : BitVec 32) (bs : Bytes 4) : Bytes 4 :=
  let image : Word 4 := Word.ofImage bs
  let keep : Word 4 := Word.toOrder (n := 4) .little (~~~Field.imm26.mask)
  let bits : Word 4 := Word.toOrder (n := 4) .little v &&& Word.toOrder (n := 4) .little Field.imm26.mask
  Word.image (image &&& keep ||| bits)

/-- A change of the word. -/
inductive Edit where
  | field (f : Field) (v : BitVec 32)
  | imm26 (v : BitVec 32)
  | word (o : ByteOrder) (v : BitVec 32)
deriving DecidableEq, Repr

namespace Edit

def apply : Edit → Bytes 4 → Bytes 4
  | field f v, bs => f.put v bs
  | imm26 v, bs => putImm26 v bs
  | word o v, _ => Word.store (n := 4) o v

/-- The words after each of the edits. -/
def run : List Edit → Bytes 4 → List (Bytes 4)
  | [], _ => []
  | e :: es, bs => e.apply bs :: run es (e.apply bs)

end Edit

end Endian.Packed
