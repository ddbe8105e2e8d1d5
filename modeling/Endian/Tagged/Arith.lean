import Endian.Failure
import Endian.Tagged.Basic

/-!
# Arithmetic on tagged integers

An operation decodes the integer, works on the host word and encodes the result. Words wrap around,
a shift by the width or more clears the word, and a division by zero is a fault that leaves the
integer as it is. `run` plays a sequence of steps.
-/

namespace Endian

/-- An operation with its right operand. -/
inductive WordOp (n : Nat) where
  | add (v : Word n)
  | sub (v : Word n)
  | mul (v : Word n)
  | div (v : Word n)
  | and (v : Word n)
  | or (v : Word n)
  | xor (v : Word n)
  | shl (k : Nat)
  | shr (k : Nat)
deriving DecidableEq, Repr

variable {n : Nat}

/-- The operation on a host word. -/
def WordOp.apply : WordOp n → Word n → Except Fault (Word n)
  | .add v, w => .ok (w + v)
  | .sub v, w => .ok (w - v)
  | .mul v, w => .ok (w * v)
  | .div v, w => if v = 0#(8 * n) then .error .divisionByZero else .ok (w / v)
  | .and v, w => .ok (w &&& v)
  | .or v, w => .ok (w ||| v)
  | .xor v, w => .ok (w ^^^ v)
  | .shl k, w => .ok (if k < 8 * n then w <<< k else 0#(8 * n))
  | .shr k, w => .ok (if k < 8 * n then w >>> k else 0#(8 * n))

namespace Tagged

variable {o : ByteOrder}

/-- Decodes, operates and encodes. -/
def update (op : WordOp n) (t : Tagged o n) : Except Fault (Tagged o n) :=
  (op.apply t.get).map t.put

/-! ### Runs -/

inductive Step (n : Nat) where
  | op (f : WordOp n)
  | put (v : Word n)
  | make (source : Source n)
  | equals (v : Word n)
  | read
  | render (s : Text.Spec)
deriving DecidableEq, Repr

/-- What a step tells besides the integer it leaves. -/
inductive Reply (n : Nat) where
  | done
  | fault (f : Fault)
  | equal (b : Bool)
  /-- The value, the signed value and, where the host word is narrower, the value in 32 bits. -/
  | reading (value : Word n) (signed : Int) (widened : Option (BitVec 32))
  | text (s : String)
deriving DecidableEq, Repr

/-- The integer after a step, and the step's reply. -/
def step (t : Tagged o n) : Step n → Tagged o n × Reply n
  | .op f =>
    match t.update f with
    | .ok t' => (t', .done)
    | .error e => (t, .fault e)
  | .put v => (t.put v, .done)
  | .make source => (ofSource source, .done)
  | .equals v => (t, .equal (t.get == v))
  | .read => (t, .reading t.get t.getSigned (if 8 * n < 32 then some (t.get.setWidth 32) else none))
  | .render s => (t, .text (t.render s))

/-- The integers and replies after each of the steps. -/
def run (t : Tagged o n) : List (Step n) → List (Tagged o n × Reply n)
  | [] => []
  | s :: ss => t.step s :: run (t.step s).1 ss

end Tagged

end Endian
