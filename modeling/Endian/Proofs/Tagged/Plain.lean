import Endian.Proofs.Word.Number
import Endian.Tagged.Arith
import Endian.Tagged.Displacement

/-!
# Tagged integers as plain numbers

A tagged integer of `n` bytes behaves as a plain number modulo `digitSpan n`. `WordOp.onNumber` are
the operations on plain numbers and `Tagged.numbers` plays steps on one; neither knows of words or
of their bytes.

`observed_run` says that a tagged integer shows at each step what the plain number shows there: the
digits of the number in the order of its type, the number, and its two's-complement reading. The
plain number does not hang on the order, so two integers of opposite orders that are treated alike
show the same numbers and reversed bytes (`numbers_mirror`). A displacement is as long as the number
that its bytes write (`Displacement.toNat_offset`).
-/

namespace Endian

variable {n : Nat}

/-! ### Operations -/

/-- The operation on a number below `digitSpan n`. -/
def WordOp.onNumber : WordOp n → Nat → Except Fault Nat
  | .add v, x => .ok ((x + v.toNat) % digitSpan n)
  | .sub v, x => .ok ((x + digitSpan n - v.toNat) % digitSpan n)
  | .mul v, x => .ok (x * v.toNat % digitSpan n)
  | .div v, x => if v.toNat = 0 then .error .divisionByZero else .ok (x / v.toNat)
  | .and v, x => .ok (x &&& v.toNat)
  | .or v, x => .ok (x ||| v.toNat)
  | .xor v, x => .ok (x ^^^ v.toNat)
  | .shl k, x => .ok (if k < 8 * n then (x <<< k) % digitSpan n else 0)
  | .shr k, x => .ok (if k < 8 * n then x >>> k else 0)

theorem WordOp.toNat_apply (op : WordOp n) (w : Word n) :
    (op.apply w).map BitVec.toNat = op.onNumber w.toNat := by
  have hspan : 2 ^ (8 * n) = digitSpan n := Nat.pow_mul 2 8 n
  cases op with
  | add v => simp only [apply, onNumber, Except.map, BitVec.toNat_add, hspan]
  | sub v =>
    have hv := Word.toNat_lt v
    have hsub : digitSpan n - v.toNat + w.toNat = w.toNat + digitSpan n - v.toNat := by omega
    simp only [apply, onNumber, Except.map, BitVec.toNat_sub, hspan, hsub]
  | mul v => simp only [apply, onNumber, Except.map, BitVec.toNat_mul, hspan]
  | div v =>
    have hzero : v = 0#(8 * n) ↔ v.toNat = 0 := by
      rw [← BitVec.toNat_inj, BitVec.toNat_zero]
    simp only [apply, onNumber, hzero]
    split
    · rfl
    · rfl
  | and v => rfl
  | or v => rfl
  | xor v => rfl
  | shl k =>
    simp only [apply, onNumber, Except.map]
    split
    · rw [BitVec.toNat_shiftLeft, hspan]
    · rfl
  | shr k =>
    simp only [apply, onNumber, Except.map]
    split
    · rw [BitVec.toNat_ushiftRight]
    · rfl

namespace Tagged

variable {o : ByteOrder}

/-! ### Steps -/

/-- The number that a source stands for in the given order. -/
def Source.number (o : ByteOrder) : Source n → Nat
  | .constant v => v.toNat
  | .value v => v.toNat
  | .bytes bs => o.number bs.toList
  | .fresh => 0

/-- A number after a step, and the fault of the step. -/
def Step.onNumber (o : ByteOrder) (x : Nat) : Step n → Nat × Option Fault
  | .op f =>
    match f.onNumber x with
    | .ok y => (y, none)
    | .error e => (x, some e)
  | .put v => (v.toNat, none)
  | .make source => (source.number o, none)
  | .equals _ | .read | .render _ => (x, none)

/-- The numbers and faults after each of the steps. -/
def numbers (o : ByteOrder) (x : Nat) : List (Step n) → List (Nat × Option Fault)
  | [] => []
  | s :: ss => s.onNumber o x :: numbers o (s.onNumber o x).1 ss

def Reply.fault? : Reply n → Option Fault
  | .fault f => some f
  | _ => none

theorem toNat_get_ofSource (source : Source n) :
    (ofSource source : Tagged o n).get.toNat = source.number o := by
  cases source with
  | constant v =>
    show (Word.load o (Word.split o v)).toNat = v.toNat
    rw [Word.split_eq_store, Word.load_store]
  | value v =>
    show (Word.load o (Word.store o v)).toNat = v.toNat
    rw [Word.load_store]
  | bytes bs => exact Word.toNat_load o bs
  | fresh =>
    show (Word.load o (Vector.replicate n 0)).toNat = 0
    rw [Word.toNat_load, Vector.toList_replicate, ByteOrder.number_replicate]

/-- A step does to the value what it does to a plain number. -/
theorem toNat_get_step (t : Tagged o n) (s : Step n) :
    ((t.step s).1.get.toNat, (t.step s).2.fault?) = s.onNumber o t.get.toNat := by
  cases s with
  | op f =>
    have happly := f.toNat_apply t.get
    cases hf : f.apply t.get with
    | ok w =>
      rw [hf] at happly
      simp only [step, update, hf, Step.onNumber, ← happly]
      exact congrArg (fun w => (w.toNat, none)) (get_put t w)
    | error e =>
      rw [hf] at happly
      simp only [step, update, hf, Step.onNumber, ← happly]
      rfl
  | put v => exact congrArg (fun w => (w.toNat, none)) (get_put t v)
  | make source => exact congrArg (·, none) (toNat_get_ofSource source)
  | equals v => rfl
  | read => rfl
  | render s => rfl

theorem toNat_get_run (t : Tagged o n) (ss : List (Step n)) :
    (t.run ss).map (fun e => (e.1.get.toNat, e.2.fault?)) = numbers o t.get.toNat ss := by
  induction ss generalizing t with
  | nil => rfl
  | cons s ss ih =>
    have hstep := toNat_get_step t s
    rw [run, List.map_cons, ih, numbers, hstep, ← hstep]

/-! ### The opposite order -/

/-- The source that gives the same number in the opposite order. -/
def Source.mirror : Source n → Source n
  | .bytes bs => .bytes bs.reverse
  | source => source

/-- The step that does the same in the opposite order: only bytes have to be reversed. -/
def Step.mirror : Step n → Step n
  | .make source => .make source.mirror
  | s => s

theorem Source.number_mirror (source : Source n) :
    source.mirror.number o.swapped = source.number o := by
  cases source with
  | bytes bs =>
    show o.swapped.number bs.reverse.toList = o.number bs.toList
    rw [Vector.toList_reverse, ByteOrder.number_swapped_reverse]
  | _ => rfl

theorem Step.onNumber_mirror (s : Step n) (x : Nat) :
    s.mirror.onNumber o.swapped x = s.onNumber o x := by
  cases s with
  | make source => exact congrArg (·, none) source.number_mirror
  | _ => rfl

theorem numbers_mirror (ss : List (Step n)) (x : Nat) :
    numbers o.swapped x (ss.map Step.mirror) = numbers o x ss := by
  induction ss generalizing x with
  | nil => rfl
  | cons s ss ih => rw [List.map_cons, numbers, numbers, s.onNumber_mirror, ih]

/-! ### What can be seen -/

/-- What an integer shows. -/
structure Reading where
  bytes : List UInt8
  value : Nat
  signed : Int
deriving DecidableEq, Repr

namespace Reading

/-- What a number below `digitSpan n` shows as an integer of `n` bytes. -/
def ofNumber (o : ByteOrder) (n x : Nat) : Reading := ⟨o.digits n x, x, signedValue n x⟩

/-- The same numbers with the bytes reversed. -/
def mirror (r : Reading) : Reading := { r with bytes := r.bytes.reverse }

theorem ofNumber_swapped (n x : Nat) : ofNumber o.swapped n x = (ofNumber o n x).mirror := by
  rw [ofNumber, o.digits_swapped]
  rfl

end Reading

def reading (t : Tagged o n) : Reading := ⟨t.bytes.toList, t.get.toNat, t.getSigned⟩

/-- What an entry of a run shows, and the fault that it reports. -/
def observe (e : Tagged o n × Reply n) : Reading × Option Fault := (e.1.reading, e.2.fault?)

theorem toList_bytes (t : Tagged o n) : t.bytes.toList = o.digits n t.get.toNat := by
  rw [← Word.toList_store, get, Word.store_load]

theorem getSigned_eq (t : Tagged o n) : t.getSigned = signedValue n t.get.toNat := by
  have hbits : 8 * n ≤ signedBits n := Nat.le_max_right _ _
  rw [getSigned, toInt_extendByShift_setWidth hbits, Word.toInt_eq_signedValue]

theorem reading_eq (t : Tagged o n) : t.reading = .ofNumber o n t.get.toNat := by
  rw [reading, Reading.ofNumber, toList_bytes, getSigned_eq]

theorem reading_ofSource (source : Source n) :
    (ofSource source : Tagged o n).reading = .ofNumber o n (source.number o) := by
  rw [reading_eq, toNat_get_ofSource]

theorem observed_run (t : Tagged o n) (ss : List (Step n)) :
    (t.run ss).map observe =
      (numbers o t.get.toNat ss).map fun p => (.ofNumber o n p.1, p.2) := by
  rw [← toNat_get_run, List.map_map]
  exact List.map_congr_left fun e _ => congrArg (·, e.2.fault?) e.1.reading_eq

/-- From any source and through any steps an integer shows what a plain number does, and one of the
opposite order, treated alike, shows the same numbers and reversed bytes. -/
theorem run_simulates (o : ByteOrder) (source : Source n) (ss : List (Step n)) :
    let t : Tagged o n := ofSource source
    let u : Tagged o.swapped n := ofSource source.mirror
    t.reading = .ofNumber o n (source.number o) ∧
      (t.run ss).map observe =
        (numbers o (source.number o) ss).map (fun p => (.ofNumber o n p.1, p.2)) ∧
      u.reading = t.reading.mirror ∧
      (u.run (ss.map Step.mirror)).map observe =
        (t.run ss).map (fun e => (e.1.reading.mirror, e.2.fault?)) := by
  intro t u
  have ht : t.get.toNat = source.number o := toNat_get_ofSource source
  have hu : u.get.toNat = source.number o := by
    rw [toNat_get_ofSource, source.number_mirror]
  have hrun := observed_run t ss
  refine ⟨reading_ofSource source, by rw [hrun, ht], ?_, ?_⟩
  · rw [u.reading_eq, t.reading_eq, hu, ht, Reading.ofNumber_swapped]
  · calc (u.run (ss.map Step.mirror)).map observe
        = (numbers o (source.number o) ss).map
            (fun p => ((Reading.ofNumber o n p.1).mirror, p.2)) := by
          rw [observed_run, hu, numbers_mirror]
          simp only [Reading.ofNumber_swapped]
      _ = ((t.run ss).map observe).map (fun p => (p.1.mirror, p.2)) := by
          rw [hrun, ht, List.map_map]
          rfl
      _ = (t.run ss).map (fun e => (e.1.reading.mirror, e.2.fault?)) := by
          rw [List.map_map]
          rfl

/-- An addition that wraps around, a division by zero and a shift into the sign bit. -/
example :
    ((ofSource (.value 0xFFFF) : Tagged .big 2).run
        [.op (.add 2), .op (.div 0), .op (.shl 15)]).map observe =
      [(⟨[0, 1], 1, 1⟩, none), (⟨[0, 1], 1, 1⟩, some .divisionByZero),
        (⟨[0x80, 0], 0x8000, -0x8000⟩, none)] := by decide

end Tagged

/-! ### Distances -/

namespace Displacement

/-- The number that the bytes of a displacement write. -/
def number : Displacement → Nat
  | narrow o t => o.number t.bytes.toList
  | wide o t => o.number t.bytes.toList

/-- A tagged integer of no more than eight bytes is a position. -/
theorem toNat_ofNat_get {o : ByteOrder} (hn : n ≤ 8) (t : Tagged o n) :
    (UInt64.ofNat t.get.toNat).toNat = o.number t.bytes.toList := by
  have hlt : t.get.toNat < UInt64.size := Nat.lt_of_lt_of_le t.get.toNat_lt (digitSpan_le hn)
  rw [UInt64.toNat_ofNat_of_lt' hlt, Tagged.get, Word.toNat_load]

theorem toNat_offset (d : Displacement) : d.offset.toNat = d.number := by
  cases d with
  | narrow o t => exact toNat_ofNat_get (by decide) t
  | wide o t => exact toNat_ofNat_get (by decide) t

end Displacement

end Endian
