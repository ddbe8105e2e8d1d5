import Endian.Setting.Basic

/-!
# Settings side by side

A bank holds several settings of one range. `run` plays a sequence of steps on it; a step that
fails leaves the bank as it is.
-/

namespace Endian.Setting

abbrev Bank (b : Bounds) (n : Nat) := Vector (Setting b) n

/-- A use of a bank of `n` settings. -/
inductive Step (n : Nat) where
  | bounds
  | contains (v : UInt32)
  | set (r : Fin n) (v : UInt32)
  | trySet (r : Fin n) (v : UInt32)
  | reset (r : Fin n)
  | assertValid (r : Fin n)
  | assignFrom (dst src : Fin n)
  | assignInto (r : Fin n) (target : UInt32)
  | value (r : Fin n)
  | equals (r s : Fin n)
  | render (r : Fin n) (spec : Text.Spec)
deriving DecidableEq, Repr

inductive Reply where
  | done
  | failed (f : Failure)
  /-- The smallest value, the default and the greatest value. -/
  | bounds (min default max : UInt32)
  | verdict (yes : Bool)
  | value (v : UInt32)
  /-- Whether a plain number was written, and the number afterwards. -/
  | target (written : Bool) (v : UInt32)
  | text (s : String)
deriving DecidableEq, Repr

namespace Bank

variable {b : Bounds} {n : Nat}

def new (b : Bounds) (n : Nat) : Bank b n := Vector.replicate n .new

def step (bank : Bank b n) : Step n → Bank b n × Reply
  | .bounds => (bank, .bounds b.min b.default b.max)
  | .contains v => (bank, .verdict (b.contains v))
  | .set r v =>
    match (bank.get r).set v with
    | .ok s => (bank.set r s r.isLt, .done)
    | .error f => (bank, .failed (.fault f))
  | .trySet r v =>
    match (bank.get r).trySet v with
    | .ok s => (bank.set r s r.isLt, .done)
    | .error e => (bank, .failed (.error e))
  | .reset r => (bank.set r (bank.get r).reset r.isLt, .done)
  | .assertValid r =>
    match (bank.get r).assertValid with
    | .ok () => (bank, .done)
    | .error f => (bank, .failed (.fault f))
  | .assignFrom dst src =>
    let (s, copied) := (bank.get dst).assignFrom (bank.get src)
    (bank.set dst s dst.isLt, .verdict copied)
  | .assignInto r target =>
    let (v, written) := (bank.get r).assignInto target
    (bank, .target written v)
  | .value r => (bank, .value (bank.get r).value)
  | .equals r s => (bank, .verdict (bank.get r == bank.get s))
  | .render r spec => (bank, .text ((bank.get r).render spec))

/-- The banks and replies after each of the steps. -/
def run (bank : Bank b n) : List (Step n) → List (Bank b n × Reply)
  | [] => []
  | s :: ss => step bank s :: run (step bank s).1 ss

end Bank

end Endian.Setting
