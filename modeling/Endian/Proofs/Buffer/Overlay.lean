import Endian.Proofs.Buffer.Access
import Endian.Proofs.Buffer.Frame
import Endian.Proofs.Word.Number

/-!
# The last write wins

A write that succeeds leaves a `Patch` on the buffer: the bytes of its number, from a place on.
`patches` are those of a run, and `Patch.overlay` looks a byte up through them: it is that of the
last patch that covers its place, and the byte underneath where none does.

`getElem?_step` says that a step leaves its patch and nothing else, `getElem?_final` the same of a
run. So two writes to places apart from each other may be exchanged (`buffer_final_swap`).
-/

namespace Endian

theorem Buffer.ext_getElem? {b b' : Buffer}
    (h : ∀ i : Nat, b.bytes[i]? = b'.bytes[i]?) : b = b' := by
  obtain ⟨bytes, hsize⟩ := b
  obtain ⟨bytes', hsize'⟩ := b'
  have hbytes : bytes = bytes' := Array.ext_getElem? h
  subst hbytes
  rfl

namespace Cursor

/-! ### Patches -/

/-- Bytes from a place on. -/
structure Patch where
  start : Nat
  bytes : List UInt8
deriving DecidableEq, Repr

namespace Patch

def stop (p : Patch) : Nat := p.start + p.bytes.length

def covers (p : Patch) (i : Nat) : Bool := p.start ≤ i && i < p.stop

def Apart (p q : Patch) : Prop := p.stop ≤ q.start ∨ q.stop ≤ p.start

/-- The byte at a place of the data under patches, a later one above an earlier. -/
def overlay (ps : List Patch) (data : Array UInt8) (i : Nat) : Option UInt8 :=
  match ps.reverse.find? fun p => p.covers i with
  | some p => p.bytes[i - p.start]?
  | none => data[i]?

variable {ps qs : List Patch} {p q : Patch} {data data' : Array UInt8} {i : Nat}

theorem overlay_append (h : data'[i]? = overlay ps data i) :
    overlay qs data' i = overlay (ps ++ qs) data i := by
  unfold overlay at h ⊢
  rw [List.reverse_append, List.find?_append]
  cases qs.reverse.find? fun q => q.covers i with
  | some q => rfl
  | none => exact h

theorem overlay_singleton :
    overlay [p] data i =
      if p.start ≤ i ∧ i < p.start + p.bytes.length then p.bytes[i - p.start]? else data[i]? := by
  unfold overlay covers stop
  by_cases h : p.start ≤ i ∧ i < p.start + p.bytes.length
  · simp [h]
  · have hcover : (decide (p.start ≤ i) && decide (i < p.start + p.bytes.length)) = false := by
      rw [← Bool.decide_and, decide_eq_false h]
    simp only [List.reverse_singleton, List.find?_singleton, hcover, if_neg h]
    rfl

theorem overlay_swap (h : p.Apart q) : overlay [p, q] data i = overlay [q, p] data i := by
  unfold overlay
  cases hp : p.covers i with
  | false => cases hq : q.covers i <;> simp [hp, hq]
  | true =>
    have hq : q.covers i = false := by
      unfold Apart at h
      simp only [covers, Bool.and_eq_true, decide_eq_true_eq] at hp
      simp only [covers, Bool.and_eq_false_iff, decide_eq_false_iff_not]
      omega
    simp [hp, hq]

end Patch

/-- What a write stores, and where it does with the cursor at `p`. -/
def Step.patch? (p : Position) : Step → Option Patch
  | .writeStart o t v => some ⟨0, o.digits t.size v.toNat⟩
  | .write o t v => some ⟨p.toNat, o.digits t.size v.toNat⟩
  | .writeStatic o t v => some ⟨p.toNat, o.digits t.size v.toNat⟩
  | .writeSized o large v => some ⟨p.toNat, o.digits (if large then 4 else 2) v.toNat⟩
  | .readStart .. | .read .. | .readStatic .. | .readSized .. | .seek .. => none

/-- The patch that a step leaves, if it is a write and succeeds. -/
def patchOf? (c : Cursor) (s : Step) : Option Patch :=
  if succeeded (c.step s) then s.patch? c.offset else none

/-- The patches that a run leaves, in order. -/
def patches (c : Cursor) : List Step → List Patch
  | [] => []
  | s :: ss => (c.patchOf? s).toList ++ patches (c.step s).1 ss

/-! ### One step -/

section Steps

variable {c c' : Cursor} {s : Step} {p : Patch}

theorem patchOf?_of_patch?_eq_none (h : s.patch? c.offset = none) : c.patchOf? s = none := by
  unfold patchOf?
  split
  · exact h
  · rfl

/-- The places of a patch are those that the write asks for. -/
theorem demand?_of_patch? (h : s.patch? c.offset = some p) :
    ∃ d, s.demand? = some d ∧ d.origin c + d.size = p.stop := by
  cases s with
  | writeStart | write | writeStatic | writeSized =>
    cases h
    exact ⟨_, rfl, by simp [Demand.origin, Patch.stop]⟩
  | _ => cases h

theorem succeeded_iff_of_patch? (h : s.patch? c.offset = some p) :
    succeeded (c.step s) ↔ p.stop ≤ c.buffer.size := by
  obtain ⟨d, hd, hstop⟩ := demand?_of_patch? h
  have hlaw := law_step c s
  unfold Step.Law at hlaw
  rw [hd] at hlaw
  rw [succeeded, Option.isNone_iff_eq_none, hlaw.succeeds_iff, Demand.Fits, hstop]

/-- Which patch a step leaves hangs on nothing but the position and the size of the buffer. -/
theorem patchOf?_congr (hoff : c.offset = c'.offset) (hsize : c.buffer.size = c'.buffer.size) :
    c.patchOf? s = c'.patchOf? s := by
  cases hp : s.patch? c.offset with
  | none =>
    rw [patchOf?_of_patch?_eq_none hp, patchOf?_of_patch?_eq_none (hoff ▸ hp)]
  | some p =>
    have hp' : s.patch? c'.offset = some p := hoff ▸ hp
    simp only [patchOf?, succeeded_iff_of_patch? hp, succeeded_iff_of_patch? hp', hp, hp', hsize]

theorem size_step (c : Cursor) (s : Step) : (c.step s).1.buffer.size = c.buffer.size := by
  have hlaw := law_step c s
  unfold Step.Law at hlaw
  split at hlaw
  · exact hlaw.size
  · obtain ⟨_, -, he⟩ := hlaw
    rw [he]

theorem buffer_step_of_patch?_eq_none (h : s.patch? c.offset = none) :
    (c.step s).1.buffer = c.buffer := by
  have hlaw := law_step c s
  unfold Step.Law at hlaw
  split at hlaw
  · next d hd =>
    apply hlaw.buffer
    cases s with
    | readStart | read | readStatic | readSized =>
      cases hd
      rfl
    | seek => cases hd
    | _ => cases h
  · obtain ⟨_, -, he⟩ := hlaw
    rw [he]

theorem getElem?_write {o : ByteOrder} {t : Scalar} {v : Word t.size}
    (h : c.offset.toNat + t.size ≤ c.buffer.size) (i : Nat) :
    ((write o t v).run c).2.buffer.bytes[i]? =
      Patch.overlay [⟨c.offset.toNat, o.digits t.size v.toNat⟩] c.buffer.bytes i := by
  rw [write_of_le h, Patch.overlay_singleton, ByteOrder.length_digits, ← Word.toList_store,
    Vector.getElem?_toList]
  exact c.buffer.getElem?_replace _ _ h i

/-- A write that succeeds leaves its patch. -/
theorem getElem?_step_of_patch? (hp : s.patch? c.offset = some p)
    (hfit : p.stop ≤ c.buffer.size) (i : Nat) :
    (c.step s).1.buffer.bytes[i]? = Patch.overlay [p] c.buffer.bytes i := by
  rw [Patch.stop] at hfit
  cases s with
  | writeStart o t v =>
    cases hp
    rw [ByteOrder.length_digits] at hfit
    exact getElem?_write (c := start c.buffer) hfit i
  | write o t v =>
    cases hp
    rw [ByteOrder.length_digits] at hfit
    exact getElem?_write hfit i
  | writeStatic o t v =>
    cases hp
    rw [ByteOrder.length_digits] at hfit
    cases o <;> exact getElem?_write hfit i
  | writeSized o large v =>
    cases hp
    rw [ByteOrder.length_digits] at hfit
    cases large with
    | true => exact getElem?_write (t := .uint32) hfit i
    | false =>
      -- the two bytes of the low half are those of the whole number
      have hlow : o.digits 2 (v.setWidth 16).toNat = o.digits 2 v.toNat := by
        rw [BitVec.toNat_setWidth]
        exact o.digits_mod 2 v.toNat
      calc (c.step (.writeSized o false v)).1.buffer.bytes[i]?
          = Patch.overlay [⟨c.offset.toNat, o.digits 2 (v.setWidth 16).toNat⟩] c.buffer.bytes i :=
            getElem?_write (t := .uint16) hfit i
        _ = Patch.overlay [⟨c.offset.toNat, o.digits 2 v.toNat⟩] c.buffer.bytes i := by rw [hlow]
  | _ => cases hp

theorem getElem?_step (c : Cursor) (s : Step) (i : Nat) :
    (c.step s).1.buffer.bytes[i]? = Patch.overlay (c.patchOf? s).toList c.buffer.bytes i := by
  cases hp : s.patch? c.offset with
  | none =>
    rw [patchOf?_of_patch?_eq_none hp, buffer_step_of_patch?_eq_none hp]
    rfl
  | some p =>
    by_cases hs : succeeded (c.step s)
    · have hpatch : c.patchOf? s = some p := by rw [patchOf?, if_pos hs, hp]
      rw [hpatch]
      exact getElem?_step_of_patch? hp ((succeeded_iff_of_patch? hp).1 hs) i
    · have hpatch : c.patchOf? s = none := by rw [patchOf?, if_neg hs]
      rw [hpatch, step_of_not_succeeded hs]
      rfl

end Steps

/-! ### Runs -/

theorem size_final (c : Cursor) (ss : List Step) : (c.final ss).buffer.size = c.buffer.size := by
  induction ss generalizing c with
  | nil => rfl
  | cons s ss ih => rw [final_cons, ih, size_step]

theorem getElem?_final (c : Cursor) (ss : List Step) (i : Nat) :
    (c.final ss).buffer.bytes[i]? = Patch.overlay (c.patches ss) c.buffer.bytes i := by
  induction ss generalizing c with
  | nil => rfl
  | cons s ss ih =>
    rw [final_cons, ih, patches]
    exact Patch.overlay_append (c.getElem?_step s i)

/-! ### Two writes in either order -/

theorem patches_seek_seek (c : Cursor) (p q : Position) (s t : Step) :
    c.patches [.seek p, s, .seek q, t] =
      (patchOf? ⟨c.buffer, p⟩ s).toList ++ (patchOf? ⟨c.buffer, q⟩ t).toList := by
  have hseek : ∀ (c : Cursor) (p : Position), c.patchOf? (.seek p) = none :=
    fun _ _ => patchOf?_of_patch?_eq_none rfl
  have hsecond : patchOf? ⟨(step ⟨c.buffer, p⟩ s).1.buffer, q⟩ t = patchOf? ⟨c.buffer, q⟩ t :=
    patchOf?_congr rfl (size_step ⟨c.buffer, p⟩ s)
  simp only [patches, hseek, Option.toList_none, List.nil_append, List.append_nil]
  exact congrArg (fun r => (patchOf? ⟨c.buffer, p⟩ s).toList ++ Option.toList r) hsecond

theorem patches_swap {c : Cursor} {p q : Position} {s t : Step} {P Q : Patch}
    (h : c.patches [.seek p, s, .seek q, t] = [P, Q]) :
    c.patches [.seek q, t, .seek p, s] = [Q, P] := by
  rw [patches_seek_seek] at h ⊢
  cases hs : patchOf? ⟨c.buffer, p⟩ s with
  | none => cases ht : patchOf? ⟨c.buffer, q⟩ t <;> simp [hs, ht] at h
  | some P' =>
    cases ht : patchOf? ⟨c.buffer, q⟩ t with
    | none => simp [hs, ht] at h
    | some Q' =>
      rw [hs, ht] at h
      injection h with hP h
      injection h with hQ
      rw [hP, hQ]
      rfl

theorem buffer_final_swap {c : Cursor} {p q : Position} {s t : Step} {P Q : Patch}
    (h : c.patches [.seek p, s, .seek q, t] = [P, Q]) (hapart : P.Apart Q) :
    (c.final [.seek q, t, .seek p, s]).buffer = (c.final [.seek p, s, .seek q, t]).buffer := by
  apply Buffer.ext_getElem?
  intro i
  rw [getElem?_final, getElem?_final, patches_swap h, h, Patch.overlay_swap hapart]

/-- After a run every byte is that of the last successful write over its place, or else the first
one. Two writes that succeed at places apart leave the same buffer in either order. -/
theorem last_write_wins (c : Cursor) (ss : List Step) :
    (c.final ss).buffer.size = c.buffer.size ∧
      (∀ i : Nat, (c.final ss).buffer.bytes[i]? = Patch.overlay (c.patches ss) c.buffer.bytes i) ∧
      ∀ (p q : Position) (s t : Step) (P Q : Patch),
        c.patches [.seek p, s, .seek q, t] = [P, Q] → P.Apart Q →
          c.patches [.seek q, t, .seek p, s] = [Q, P] ∧
            (c.final [.seek q, t, .seek p, s]).buffer =
              (c.final [.seek p, s, .seek q, t]).buffer :=
  ⟨size_final c ss, getElem?_final c ss,
    fun _ _ _ _ _ _ h hapart => ⟨patches_swap h, buffer_final_swap h hapart⟩⟩

/-- Overlapping writes in both orders, one that does not fit, and two fields apart. -/
theorem last_write_wins_overlap :
    let c : Cursor := ⟨⟨#[1, 2, 3, 4, 5, 6], by decide⟩, 1⟩
    let ss : List Step := [.write .big .uint32 0x0A0B0C0D, .write .little .int16 0x1234,
      .seek 2, .writeSized .little false 0x7B1C8]
    c.patches ss = [⟨1, [10, 11, 12, 13]⟩, ⟨2, [0xC8, 0xB1]⟩] ∧
      (c.final ss).buffer.bytes = #[1, 10, 0xC8, 0xB1, 13, 6] ∧
      (c.final ss).buffer.bytes[3]? = Patch.overlay (c.patches ss) c.buffer.bytes 3 ∧
      (c.final [.seek 4, .write .big .uint16 7, .seek 0, .writeStart .little .int32 (-2)]).buffer =
        (c.final
          [.seek 0, .writeStart .little .int32 (-2), .seek 4, .write .big .uint16 7]).buffer := by
  intro c ss
  have hwins := last_write_wins c ss
  have hswap := hwins.2.2 0 4 (.writeStart .little .int32 (-2)) (.write .big .uint16 7)
    ⟨0, [254, 255, 255, 255]⟩ ⟨4, [0, 7]⟩ (by decide) (.inl (by decide))
  exact ⟨by decide, by decide, hwins.2.1 3, hswap.2⟩

end Cursor

end Endian
