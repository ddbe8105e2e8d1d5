import Endian.Text.Spec
import Endian.Word.Order
import Endian.Word.SignExtend

/-!
# Tagged integers

`Tagged o n` is an integer of `n` bytes that is kept in byte order `o`, whatever the order of the
host. Its value is what `get` reads; equality is that of the bytes, order that of the values, and
`get_inj` says that the two agree.
-/

namespace Endian

/-- An unsigned integer of `n` bytes, kept in the byte order of its type. -/
structure Tagged (o : ByteOrder) (n : Nat) where
  bytes : Bytes n
deriving DecidableEq, Repr

namespace Tagged

variable {o : ByteOrder} {n : Nat}

/-- The integer of a constant, encoded by shifts. -/
def ofWord (v : Word n) : Tagged o n := ⟨Word.split o v⟩

def zero : Tagged o n := ⟨Vector.replicate n 0⟩

/-- The stored value. -/
def get (t : Tagged o n) : Word n := Word.load o t.bytes

/-- Replaces the stored value. -/
def put (_ : Tagged o n) (v : Word n) : Tagged o n := ⟨Word.store o v⟩

/-- Bits of the host integer that holds the signed value. -/
def signedBits (n : Nat) : Nat := max 32 (8 * n)

/-- The stored value, negative where its top bit is set. -/
def getSigned (t : Tagged o n) : Int :=
  (extendByShift (8 * n) (t.get.setWidth (signedBits n))).toInt

@[simp] theorem get_put (t : Tagged o n) (v : Word n) : (t.put v).get = v := Word.load_store o v

theorem get_inj {s t : Tagged o n} : s.get = t.get ↔ s = t := by
  rw [get, get, Word.load_inj, Tagged.mk.injEq]

/-! ### Where an integer comes from -/

inductive Source (n : Nat) where
  | constant (v : Word n)
  /-- Stored into a fresh integer. -/
  | value (v : Word n)
  | bytes (bs : Bytes n)
  | fresh
deriving DecidableEq, Repr

def ofSource : Source n → Tagged o n
  | .constant v => ofWord v
  | .value v => zero.put v
  | .bytes bs => ⟨bs⟩
  | .fresh => zero

/-! ### Order -/

instance : Ord (Tagged o n) where
  compare s t := compare s.get.toNat t.get.toNat

/-- The same order where two integers might be incomparable; no two are. -/
def partialCompare (s t : Tagged o n) : Option Ordering := some (compare s t)

/-- The order of the unsigned values. -/
def compareUnsigned (s t : Tagged o n) : Ordering := compare s.get.toNat t.get.toNat

/-- The order of the signed values. -/
def compareSigned (s t : Tagged o n) : Ordering := compare s.getSigned t.getSigned

/-- The greater of two, the second if they are equal. -/
def greater (s t : Tagged o n) : Tagged o n := if compare s t = .gt then s else t

def sort (ts : List (Tagged o n)) : List (Tagged o n) :=
  ts.mergeSort fun s t => (compare s t).isLE

def sortUnsigned (ts : List (Tagged o n)) : List (Tagged o n) :=
  ts.mergeSort fun s t => (s.compareUnsigned t).isLE

def sortSigned (ts : List (Tagged o n)) : List (Tagged o n) :=
  ts.mergeSort fun s t => (s.compareSigned t).isLE

/-! ### Text -/

def typeName (o : ByteOrder) (n : Nat) : String :=
  (match o with
    | .big => "BE"
    | .little => "LE") ++ toString (8 * n)

open Text in
/-- The value as the field asks for it. Debug output names the type and takes no padding. -/
def render (s : Spec) (t : Tagged o n) : String :=
  match s.style with
  | .debug => typeName o n ++ "(" ++ Spec.markedHex.renderNat t.get.toNat ++ ")"
  | _ => s.renderNat t.get.toNat

end Tagged

end Endian
