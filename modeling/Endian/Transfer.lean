import Endian.Record

/-!
# Transfers between memory and registers

How the accesses to words and records are carried out. The host moves words of its own as a whole,
by their memory image, or byte by byte; `Transfer` names the ways. A word in a stated order is moved
as a host word and put into that order in a register of at least 32 bits. Records of three bytes
have no host word and are put together in a register one byte after another.

- `Transfer.load`, `Transfer.store`: words of a stated order.
- `Width.fetch`, `Width.deposit`, `Width.fetchSigned`: the numbers in records.
-/

namespace Endian

/-- The bytes of `src` in the places of those of `dest`. -/
def Bytes.overwrite {n : Nat} (dest src : Bytes n) : Bytes n := dest.zipWith (fun _ b => b) src

/-- The eight bits of a register from bit `s` upwards. -/
def Register.byteAt {r : Nat} (v : BitVec r) (s : Nat) : UInt8 :=
  UInt8.ofBitVec (((v >>> s) &&& 255#r).setWidth 8)

/-! ### A byte a round -/

namespace Word

variable {n : Nat}

/-- The word that a loop over the bytes of the host's image has after `k` rounds. -/
def gather (bs : Bytes n) : (k : Nat) → k ≤ n → Word n
  | 0, _ => 0
  | k + 1, h => gather bs k (Nat.le_of_succ_le h) |||
      ((bs.get ⟨k, h⟩).toBitVec.setWidth (8 * n) <<< (8 * k))

/-- The bytes that a loop over the places of the host's image has after `k` rounds. -/
def scatter (w : Word n) : (k : Nat) → k ≤ n → Bytes n
  | 0, _ => Vector.replicate n 0
  | k + 1, h => (scatter w k (Nat.le_of_succ_le h)).set k (Register.byteAt w (8 * k)) h

end Word

/-! ### Words in an order -/

/-- Bits of the register in which a word of `n` bytes is put into its order. -/
def Register.bits (n : Nat) : Nat := max 32 (8 * n)

/-- Exchanges a host word with its form in the given order, in a register. -/
def Register.convert {n : Nat} (o : ByteOrder) (w : Word n) : Word n :=
  (toOrder n o (w.setWidth (bits n))).setWidth (8 * n)

/-- A way to move a word between memory and register. -/
inductive Transfer where
  /-- The memory image as a whole. -/
  | whole
  /-- All bytes in one expression of shifts. -/
  | shifts
  /-- A shift a round. -/
  | rounds
deriving DecidableEq, Repr

namespace Transfer

variable {n : Nat}

/-- The host word that `bs` are the image of. -/
def loadHost (m : Transfer) (bs : Bytes n) : Word n :=
  match m with
  | whole => Word.ofImage bs
  | shifts => Word.compose .host bs
  | rounds => Word.gather bs n (Nat.le_refl n)

/-- The image of a host word. Only a word that is moved as a whole has a destination; the other
ways make new bytes. -/
def storeHost (m : Transfer) (w : Word n) (dest : Bytes n) : Bytes n :=
  match m with
  | whole => dest.overwrite w.image
  | shifts => Word.split .host w
  | rounds => Word.scatter w n (Nat.le_refl n)

/-- The word that `bs` hold in the given order. -/
def load (m : Transfer) (o : ByteOrder) (bs : Bytes n) : Word n :=
  Register.convert o (m.loadHost bs)

/-- The bytes of a word in the given order. -/
def store (m : Transfer) (o : ByteOrder) (w : Word n) (dest : Bytes n) : Bytes n :=
  m.storeHost (Register.convert o w) dest

end Transfer

/-! ### Three bytes -/

namespace Register

/-- The number of three bytes. -/
def ofThree (o : ByteOrder) (bs : Bytes 3) : BitVec 32 :=
  let digit (i : Fin 3) : BitVec 32 := (bs.get i).toBitVec.setWidth 32
  match o with
  | .big => (digit 0 <<< 16) ||| (digit 1 <<< 8) ||| digit 2
  | .little => digit 0 ||| (digit 1 <<< 8) ||| (digit 2 <<< 16)

/-- Three bytes set one after another to those of a number; its high byte is dropped. -/
def putThree (o : ByteOrder) (v : BitVec 32) (dest : Bytes 3) : Bytes 3 :=
  match o with
  | .big => ((dest.set 0 (byteAt v 16)).set 1 (byteAt v 8)).set 2 (byteAt v 0)
  | .little => ((dest.set 0 (byteAt v 0)).set 1 (byteAt v 8)).set 2 (byteAt v 16)

end Register

/-! ### Records -/

namespace Width

/-- The number in a record. -/
def fetch (k : Width) (o : ByteOrder) : Bytes k.size → BitVec k.register :=
  match k with
  | w16 => fun bs => Transfer.whole.load (n := 2) o bs
  | w24 => fun bs => Register.ofThree o bs
  | w32 => fun bs => Transfer.whole.load (n := 4) o bs
  | w64 => fun bs => Transfer.whole.load (n := 8) o bs

/-- Writes a number into a record; what does not fit is dropped. -/
def deposit (k : Width) (o : ByteOrder) : BitVec k.register → Bytes k.size → Bytes k.size :=
  match k with
  | w16 => fun v dest => Transfer.whole.store (n := 2) o v dest
  | w24 => fun v dest => Register.putThree o v dest
  | w32 => fun v dest => Transfer.whole.store (n := 4) o v dest
  | w64 => fun v dest => Transfer.whole.store (n := 8) o v dest

/-- The number in a record, sign-extended in the register of its signed numbers. -/
def fetchSigned (k : Width) (o : ByteOrder) (bs : Bytes k.size) : Except Fault Int :=
  signExtend ((k.fetch o bs).setWidth k.signedRegister) k.bits

end Width

end Endian
