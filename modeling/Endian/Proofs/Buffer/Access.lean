import Endian.Buffer.Run

/-!
# Bounds of accesses

What a step of a run may touch is its `Demand`: so many bytes, at the cursor or at the start of the
buffer, to be read or written. `Demand.Met` is the law of an access. It succeeds exactly if its
bytes lie in the buffer, the sum taken in natural numbers; the position then moves by its size.
Otherwise it answers that it is out of bounds, and buffer and position are as before. No access is a
fault.

`lawful_run` says that every step of a run keeps to it, and `run_kept` that the failed steps of a
run can be left out: the others give the same entries without them.
-/

namespace Endian.Cursor

/-- The failure that a reply reports. -/
def Reply.failure? : Reply → Option Failure
  | .failed f => some f
  | _ => none

/-! ### Demands -/

/-- What an access asks of the buffer. -/
structure Demand where
  /-- At the start of the buffer, wherever the cursor is. -/
  atStart : Bool
  writes : Bool
  size : Nat

/-- The demand of a step; a seek has none. -/
def Step.demand? : Step → Option Demand
  | .readStart _ t => some ⟨true, false, t.size⟩
  | .read _ t => some ⟨false, false, t.size⟩
  | .readStatic _ t => some ⟨false, false, t.size⟩
  | .readSized _ large => some ⟨false, false, if large then 4 else 2⟩
  | .writeStart _ t _ => some ⟨true, true, t.size⟩
  | .write _ t _ => some ⟨false, true, t.size⟩
  | .writeStatic _ t _ => some ⟨false, true, t.size⟩
  | .writeSized _ large _ => some ⟨false, true, if large then 4 else 2⟩
  | .seek _ => none

namespace Demand

variable {c : Cursor} {d : Demand} {e : Cursor × Reply}

/-- Where the bytes of an access start. -/
def origin (c : Cursor) (d : Demand) : Nat := if d.atStart then 0 else c.offset.toNat

/-- How far an access moves the cursor. -/
def stride (d : Demand) : Nat := if d.atStart then 0 else d.size

def Fits (c : Cursor) (d : Demand) : Prop := d.origin c + d.size ≤ c.buffer.size

/-- The law of an access, of the cursor and the reply that it leaves. -/
structure Met (c : Cursor) (d : Demand) (e : Cursor × Reply) : Prop where
  succeeds_iff : e.2.failure? = none ↔ d.Fits c
  of_failed : e.2.failure? ≠ none → e = (c, .failed (.error .outOfBounds))
  offset : e.2.failure? = none → e.1.offset.toNat = c.offset.toNat + d.stride
  buffer : d.writes = false → e.1.buffer = c.buffer
  size : e.1.buffer.size = c.buffer.size

theorem met_of_not_fits (h : ¬ d.Fits c) : d.Met c (c, .failed (.error .outOfBounds)) where
  succeeds_iff := ⟨(fun hf => by cases hf), fun hf => absurd hf h⟩
  of_failed _ := rfl
  offset hf := by cases hf
  buffer _ := rfl
  size := rfl

theorem met_of_fits (h : d.Fits c) (hr : e.2.failure? = none)
    (hoff : e.1.offset.toNat = c.offset.toNat + d.stride)
    (hbuf : d.writes = false → e.1.buffer = c.buffer) (hsize : e.1.buffer.size = c.buffer.size) :
    d.Met c e where
  succeeds_iff := ⟨fun _ => h, fun _ => hr⟩
  of_failed hf := absurd hr hf
  offset _ := hoff
  buffer := hbuf
  size := hsize

end Demand

/-! ### Each access meets its demand -/

section Accesses

variable (c : Cursor) (o : ByteOrder) (t : Scalar)

theorem met_read {reply : Word t.size → Reply} (hr : ∀ v, (reply v).failure? = none) :
    Demand.Met c ⟨false, false, t.size⟩ (c.perform reply (read o t)) := by
  rcases Nat.lt_or_ge c.buffer.size (c.offset.toNat + t.size) with h | h
  · rw [perform_of_run (read_of_lt h)]
    exact Demand.met_of_not_fits (Nat.not_le.2 h)
  · rw [perform_of_run (read_of_le h)]
    exact Demand.met_of_fits h (hr _) (toNat_advance h) (fun _ => rfl) rfl

theorem met_readStart :
    Demand.Met c ⟨true, false, t.size⟩ (c.step (.readStart o t)) := by
  rw [step, Buffer.read]
  rcases Nat.lt_or_ge c.buffer.size (0 + t.size) with h | h
  · rw [read_of_lt (c := start c.buffer) h]
    exact Demand.met_of_not_fits (Nat.not_le.2 h)
  · rw [read_of_le (c := start c.buffer) h]
    exact Demand.met_of_fits h rfl rfl (fun _ => rfl) rfl

theorem met_write (v : Word t.size) :
    Demand.Met c ⟨false, true, t.size⟩ (c.perform (fun _ => .written) (write o t v)) := by
  rcases Nat.lt_or_ge c.buffer.size (c.offset.toNat + t.size) with h | h
  · rw [perform_of_run (write_of_lt h)]
    exact Demand.met_of_not_fits (Nat.not_le.2 h)
  · rw [perform_of_run (write_of_le h)]
    exact Demand.met_of_fits h rfl (toNat_advance h) (fun hw => by cases hw)
      (Buffer.size_replace _ _ _ h)

theorem met_writeStart (v : Word t.size) :
    Demand.Met c ⟨true, true, t.size⟩ (c.step (.writeStart o t v)) := by
  rw [step, Buffer.write]
  rcases Nat.lt_or_ge c.buffer.size (0 + t.size) with h | h
  · rw [write_of_lt (c := start c.buffer) h]
    exact Demand.met_of_not_fits (Nat.not_le.2 h)
  · rw [write_of_le (c := start c.buffer) h]
    exact Demand.met_of_fits h rfl rfl (fun hw => by cases hw) (Buffer.size_replace _ _ _ h)

theorem met_readSized (large : Bool) :
    Demand.Met c ⟨false, false, if large then 4 else 2⟩ (c.step (.readSized o large)) := by
  cases large with
  | true => exact met_read c o .uint32 fun _ => rfl
  | false =>
    rw [step_readSized_false]
    exact met_read c o .uint16 fun _ => rfl

theorem met_writeSized (large : Bool) (v : BitVec 32) :
    Demand.Met c ⟨false, true, if large then 4 else 2⟩ (c.step (.writeSized o large v)) := by
  cases large with
  | true => exact met_write c o .uint32 v
  | false => exact met_write c o .uint16 (v.setWidth 16)

end Accesses

/-- The law of a step: an access meets its demand, a seek sets the position. -/
def Step.Law (c : Cursor) (s : Step) (e : Cursor × Reply) : Prop :=
  match s.demand? with
  | some d => d.Met c e
  | none => ∃ p, s = .seek p ∧ e = ({ c with offset := p }, .moved)

theorem law_step (c : Cursor) (s : Step) : s.Law c (c.step s) := by
  cases s with
  | readStart o t => exact met_readStart c o t
  | read o t => exact met_read c o t fun _ => rfl
  | readStatic o t => cases o <;> exact met_read c _ t fun _ => rfl
  | readSized o large => exact met_readSized c o large
  | writeStart o t v => exact met_writeStart c o t v
  | write o t v => exact met_write c o t v
  | writeStatic o t v => cases o <;> exact met_write c _ t v
  | writeSized o large v => exact met_writeSized c o large v
  | seek p => exact ⟨p, rfl, rfl⟩

/-- A step that fails leaves the cursor as it is. -/
theorem step_of_failed {c : Cursor} {s : Step} (h : (c.step s).2.failure? ≠ none) :
    (c.step s).1 = c := by
  have hlaw := law_step c s
  unfold Step.Law at hlaw
  split at hlaw
  · rw [hlaw.of_failed h]
  · obtain ⟨p, -, he⟩ := hlaw
    rw [he] at h
    exact absurd rfl h

/-! ### Runs -/

/-- Every entry keeps to the law of its step, from the cursor that the entry before it left. -/
inductive Lawful : Cursor → List Step → List (Cursor × Reply) → Prop where
  | nil (c : Cursor) : Lawful c [] []
  | cons {c : Cursor} {s : Step} {e : Cursor × Reply} {ss : List Step}
      {es : List (Cursor × Reply)} :
      s.Law c e → Lawful e.1 ss es → Lawful c (s :: ss) (e :: es)

theorem lawful_run (c : Cursor) (ss : List Step) : Lawful c ss (c.run ss) := by
  induction ss generalizing c with
  | nil => exact .nil c
  | cons s ss ih => exact .cons (law_step c s) (ih _)

/-- Whether an entry is that of a step that succeeded. -/
def succeeded (e : Cursor × Reply) : Bool := e.2.failure?.isNone

/-- The steps that succeed in a run. -/
def kept (c : Cursor) (ss : List Step) : List Step :=
  ((ss.zip (c.run ss)).filter fun p => succeeded p.2).map (·.1)

/-- The cursor after a run. -/
def final (c : Cursor) (ss : List Step) : Cursor := ((c.run ss).map (·.1)).getLastD c

theorem final_cons (c : Cursor) (s : Step) (ss : List Step) :
    c.final (s :: ss) = (c.step s).1.final ss := by
  simp only [final, run, List.map_cons, List.getLastD_cons]

theorem kept_cons (c : Cursor) (s : Step) (ss : List Step) :
    c.kept (s :: ss) =
      if succeeded (c.step s) then s :: (c.step s).1.kept ss else (c.step s).1.kept ss := by
  simp only [kept, run, List.zip_cons_cons, List.filter_cons]
  split <;> rfl

theorem step_of_not_succeeded {c : Cursor} {s : Step} (h : ¬ succeeded (c.step s)) :
    (c.step s).1 = c := by
  refine step_of_failed fun hf => h ?_
  rw [succeeded, hf]
  rfl

theorem run_kept (c : Cursor) (ss : List Step) :
    c.run (c.kept ss) = (c.run ss).filter succeeded := by
  induction ss generalizing c with
  | nil => rfl
  | cons s ss ih =>
    rw [kept_cons, run, List.filter_cons]
    split
    · rw [run, ih]
    · next h =>
      rw [step_of_not_succeeded h]
      exact ih c

theorem final_kept (c : Cursor) (ss : List Step) : c.final (c.kept ss) = c.final ss := by
  induction ss generalizing c with
  | nil => rfl
  | cons s ss ih =>
    rw [kept_cons, final_cons]
    split
    · rw [final_cons, ih]
    · next h =>
      rw [step_of_not_succeeded h]
      exact ih c

/-- Every access of a run is in bounds or without effect, and the run is the same without the
accesses that fail. -/
theorem run_bounded (c : Cursor) (ss : List Step) :
    Lawful c ss (c.run ss) ∧ c.run (c.kept ss) = (c.run ss).filter succeeded ∧
      c.final (c.kept ss) = c.final ss :=
  ⟨lawful_run c ss, run_kept c ss, final_kept c ss⟩

end Endian.Cursor
