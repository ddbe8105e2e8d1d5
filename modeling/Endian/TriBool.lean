import Endian.Word.Basic

/-!
# Three-valued booleans

A `TriBool lenient n` is a truth value with a third state, kept as the number 0, 1 or 2 in a word
of `n` bytes. Reading a number is permissive: whatever is neither 0 nor 1 is the third state. In
plain boolean context a lenient value counts the third state as true.
-/

namespace Endian

inductive TriState where
  | no
  | yes
  | third
deriving DecidableEq, Repr

namespace TriState

def all : List TriState := [no, yes, third]

def name : TriState → String
  | no => "False"
  | yes => "True"
  | third => "Third"

/-- The number that stands for a state. -/
def rank : TriState → Nat
  | no => 0
  | yes => 1
  | third => 2

instance : Ord TriState where
  compare s t := compare s.rank t.rank

/-- The state that a number stands for. -/
def ofInt (v : Int) : TriState := if v = 0 then no else if v = 1 then yes else third

end TriState

structure TriBool (lenient : Bool) (n : Nat) where
  raw : Word n
deriving DecidableEq, Repr

namespace TriBool

variable {lenient : Bool} {n : Nat}

def new (s : TriState) : TriBool lenient n := ⟨BitVec.ofNat _ s.rank⟩

def fresh : TriBool lenient n := ⟨0#(8 * n)⟩

def ofInt (v : Int) : TriBool lenient n := new (.ofInt v)

def ofBool (b : Bool) : TriBool lenient n := new (if b then .yes else .no)

/-- The state of the stored number. -/
def state (t : TriBool lenient n) : TriState :=
  if t.raw = 0#(8 * n) then .no else if t.raw = 1#(8 * n) then .yes else .third

def toBool (t : TriBool lenient n) : Bool :=
  if lenient then t.state != .no else t.state == .yes

/-- Exactly the false state. -/
def isStrictFalse (t : TriBool lenient n) : Bool := t.state == .no

/-- Exactly the true state. -/
def isStrictTrue (t : TriBool lenient n) : Bool := t.state == .yes

def isThird (t : TriBool lenient n) : Bool := t.state == .third

/-- One of the two definite states. -/
def isStrictBool (t : TriBool lenient n) : Bool := !t.isThird

/-- Compares with a number that is read permissively. -/
def eqInt (t : TriBool lenient n) (v : Int) : Bool := t.state == (ofInt v : TriBool lenient n).state

def text (t : TriBool lenient n) : String := s!"TriBool<{lenient}>({t.state.name})"

end TriBool

end Endian
