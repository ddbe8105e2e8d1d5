import Endian.Proofs.Tagged.Plain
import Mathlib.Algebra.BigOperators.Group.List.Basic
import Mathlib.Data.Int.ModEq
import Mathlib.Tactic.Ring

/-!
# Sums of displacements

Pointers and plain positions are moved by displacements in two regimes.

A pointer counts elements and wraps around. After any moves it is at its start plus the signed sum
of the distances in elements, modulo the number of addresses (`final_eq`), so the order of the moves
and the way in which each one is written do not matter. A plain position is moved by bytes, exactly
or not at all (`exact_offset`).
-/

namespace Endian

namespace Pointer

/-- The elements that a move covers, negative where it goes back. -/
def Move.distance : Move → Int
  | .plus d | .plusLeft d | .forward d => d.offset.toNat
  | .minus d | .backward d => -d.offset.toNat

/-- The pointer after a run. -/
def final (p : Pointer) (ms : List Move) : Pointer := (p.run ms).getLastD p

theorem final_cons (p : Pointer) (m : Move) (ms : List Move) :
    p.final (m :: ms) = (p.move m).final ms := by
  rw [final, run, List.getLastD_cons, final]

/-! ### One move -/

theorem forward_modEq (p : Pointer) (d : Displacement) :
    ((p.forward d).address.toNat : Int) ≡ p.address.toNat + p.stride.toNat * d.offset.toNat
      [ZMOD UInt64.size] := by
  have hsum : (p.forward d).address.toNat =
      (p.address.toNat + d.offset.toNat * p.stride.toNat % UInt64.size) % UInt64.size := by
    rw [forward, UInt64.toNat_add, UInt64.toNat_mul]
  rw [hsum, Int.natCast_emod, Nat.cast_add, Int.natCast_emod, Nat.cast_mul, Int.mul_comm]
  exact (Int.mod_modEq _ _).trans ((Int.mod_modEq _ _).add_left _)

theorem backward_modEq (p : Pointer) (d : Displacement) :
    ((p.backward d).address.toNat : Int) ≡ p.address.toNat + p.stride.toNat * -d.offset.toNat
      [ZMOD UInt64.size] := by
  -- Going back and forth again is adding and taking away one number.
  have hback : ((p.backward d).forward d).address = p.address := by
    simp only [forward, backward, UInt64.sub_add_cancel]
  have hforward : (p.address.toNat : Int) ≡
      (p.backward d).address.toNat + p.stride.toNat * d.offset.toNat [ZMOD UInt64.size] := by
    have h := forward_modEq (p.backward d) d
    rwa [hback] at h
  have hsub := hforward.symm.sub_right (p.stride.toNat * d.offset.toNat : Int)
  rwa [Int.add_sub_cancel, Int.sub_eq_add_neg, ← Int.mul_neg] at hsub

theorem move_modEq (p : Pointer) (m : Move) :
    ((p.move m).address.toNat : Int) ≡ p.address.toNat + p.stride.toNat * m.distance
      [ZMOD UInt64.size] := by
  cases m with
  | plus d => exact forward_modEq p d
  | plusLeft d => exact forward_modEq p d
  | forward d => exact forward_modEq p d
  | minus d => exact backward_modEq p d
  | backward d => exact backward_modEq p d

@[simp] theorem stride_move (p : Pointer) (m : Move) : (p.move m).stride = p.stride := by
  cases m <;> rfl

/-! ### A run of moves -/

@[simp] theorem stride_final (p : Pointer) (ms : List Move) : (p.final ms).stride = p.stride := by
  induction ms generalizing p with
  | nil => rfl
  | cons m ms ih => rw [final_cons, ih, stride_move]

theorem final_modEq (p : Pointer) (ms : List Move) :
    ((p.final ms).address.toNat : Int) ≡
      p.address.toNat + p.stride.toNat * (ms.map Move.distance).sum [ZMOD UInt64.size] := by
  induction ms generalizing p with
  | nil =>
    rw [List.map_nil, List.sum_nil, Int.mul_zero, Int.add_zero]
    rfl
  | cons m ms ih =>
    rw [final_cons, List.map_cons, List.sum_cons, Int.mul_add, ← Int.add_assoc]
    have hrest := ih (p.move m)
    rw [stride_move] at hrest
    exact hrest.trans ((move_modEq p m).add_right _)

theorem toNat_final (p : Pointer) (ms : List Move) :
    ((p.final ms).address.toNat : Int) =
      (p.address.toNat + p.stride.toNat * (ms.map Move.distance).sum) % UInt64.size := by
  have hlt : ((p.final ms).address.toNat : Int) < UInt64.size := by
    exact_mod_cast (p.final ms).address.toNat_lt
  rw [← (final_modEq p ms).eq, Int.emod_eq_of_lt (Int.natCast_nonneg _) hlt]

theorem ext_toNat {p q : Pointer} (hstride : p.stride = q.stride)
    (haddress : (p.address.toNat : Int) = q.address.toNat) : p = q := by
  obtain ⟨a, s⟩ := p
  obtain ⟨b, t⟩ := q
  cases hstride
  have hab : a = b := UInt64.toNat_inj.1 (Int.ofNat_inj.1 haddress)
  rw [hab]

/-- Only the sum of the distances counts. -/
theorem final_congr (p : Pointer) {ms ms' : List Move}
    (h : (ms.map Move.distance).sum = (ms'.map Move.distance).sum) : p.final ms = p.final ms' := by
  refine ext_toNat ?_ ?_
  · rw [stride_final, stride_final]
  · rw [toNat_final, toNat_final, h]

theorem final_perm (p : Pointer) {ms ms' : List Move} (h : ms'.Perm ms) :
    p.final ms' = p.final ms :=
  p.final_congr (h.map _).sum_eq

/-- Moves that cover the same distances the other way, in any order, lead back to the start. -/
theorem final_append_of_perm_neg (p : Pointer) {ms back : List Move}
    (h : (back.map Move.distance).Perm (ms.map fun m => -m.distance)) : p.final (ms ++ back) = p := by
  have hneg : (ms.map fun m => -m.distance).sum = -(ms.map Move.distance).sum := by
    rw [List.sum_neg, List.map_map]
    rfl
  have hsum : ((ms ++ back).map Move.distance).sum = (([] : List Move).map Move.distance).sum := by
    rw [List.map_append, List.sum_append, h.sum_eq, hneg, Int.add_right_neg]
    rfl
  exact p.final_congr hsum

end Pointer

/-! ### Plain positions -/

/-- Sums and differences of a position and a displacement are exact, and a fault where there is no
such position. -/
structure ExactSums (base : Position) (d : Displacement) : Prop where
  add_comm : base + d = d + base
  add_of_lt : base.toNat + d.offset.toNat < UInt64.size →
    ∃ s, base + d = .ok s ∧ s.toNat = base.toNat + d.offset.toNat
  add_fault_iff : base + d = .error .addOverflow ↔ UInt64.size ≤ base.toNat + d.offset.toNat
  sub_of_le : d.offset.toNat ≤ base.toNat →
    ∃ s, base - d = .ok s ∧ s.toNat = base.toNat - d.offset.toNat
  sub_fault_iff : base - d = .error .subOverflow ↔ base.toNat < d.offset.toNat
  sub_of_add : ∀ s, base + d = .ok s → s - d = .ok base

namespace Position

variable {a b : Position}

theorem checkedAdd_eq_ok_iff {s : Position} :
    checkedAdd a b = .ok s ↔ a.toNat + b.toNat < UInt64.size ∧ a + b = s := by
  rw [checkedAdd]
  split
  · next h => simp [h]
  · next h => simp [h]

theorem checkedAdd_eq_error_iff {f : Fault} :
    checkedAdd a b = .error f ↔ UInt64.size ≤ a.toNat + b.toNat ∧ .addOverflow = f := by
  rw [checkedAdd]
  split
  · next h => simp [h]
  · next h => simp [Nat.not_lt.1 h]

theorem checkedSub_eq_ok_iff {s : Position} :
    checkedSub a b = .ok s ↔ b.toNat ≤ a.toNat ∧ a - b = s := by
  rw [checkedSub]
  split
  · next h => simp [h]
  · next h => simp [h]

theorem checkedSub_eq_error_iff {f : Fault} :
    checkedSub a b = .error f ↔ a.toNat < b.toNat ∧ .subOverflow = f := by
  rw [checkedSub]
  split
  · next h => simp [h]
  · next h => simp [Nat.not_le.1 h]

theorem checkedAdd_comm (a b : Position) : checkedAdd a b = checkedAdd b a := by
  rw [checkedAdd, checkedAdd, Nat.add_comm, UInt64.add_comm]

/-- A difference undoes a sum. -/
theorem checkedSub_of_checkedAdd {s : Position} (h : checkedAdd a b = .ok s) :
    checkedSub s b = .ok a := by
  obtain ⟨hlt, rfl⟩ := checkedAdd_eq_ok_iff.1 h
  refine checkedSub_eq_ok_iff.2 ⟨?_, UInt64.add_sub_cancel a b⟩
  rw [toNat_add_of_lt hlt]
  exact Nat.le_add_left _ _

end Position

open Position in
theorem exactSums (base : Position) (d : Displacement) : ExactSums base d where
  add_comm := checkedAdd_comm base d.offset
  add_of_lt h := ⟨_, checkedAdd_of_lt h, toNat_add_of_lt h⟩
  add_fault_iff := checkedAdd_eq_error_iff.trans (and_iff_left rfl)
  sub_of_le h := ⟨_, checkedSub_eq_ok_iff.2 ⟨h, rfl⟩,
    UInt64.toNat_sub_of_le _ _ (UInt64.le_iff_toNat_le.2 h)⟩
  sub_fault_iff := checkedSub_eq_error_iff.trans (and_iff_left rfl)
  sub_of_add _ h := checkedSub_of_checkedAdd h

/-- A pointer ends at its start plus the signed sum of the distances in elements, which are the numbers
of their tags, modulo the number of addresses, in whatever order and way it is moved, and moves that are
undone lead back. Plain positions are exact instead. -/
theorem displacements_add_up :
    (∀ d : Displacement, d.offset.toNat = d.number) ∧
    (∀ (p : Pointer) (ms : List Pointer.Move),
      (p.final ms).stride = p.stride ∧
      ((p.final ms).address.toNat : Int) =
        (p.address.toNat + p.stride.toNat * (ms.map Pointer.Move.distance).sum) % UInt64.size ∧
      (∀ ms' : List Pointer.Move, ms'.Perm ms → p.final ms' = p.final ms) ∧
      ∀ back : List Pointer.Move,
        (back.map Pointer.Move.distance).Perm (ms.map fun m => -m.distance) →
          p.final (ms ++ back) = p) ∧
    ∀ (base : Position) (d : Displacement), ExactSums base d :=
  ⟨Displacement.toNat_offset, fun p ms => ⟨p.stride_final ms, p.toNat_final ms, fun _ => p.final_perm,
    fun _ => p.final_append_of_perm_neg⟩, exactSums⟩

/-- Over the end of the address space and back again, in steps of twelve bytes. -/
theorem displacements_add_up_wrapped :
    let three : Displacement := .narrow .big ⟨#v[0, 3]⟩
    let five : Displacement := .wide .little ⟨#v[5, 0, 0, 0]⟩
    let p : Pointer := ⟨0xFFFFFFFFFFFFFFF8, 12⟩
    let ms : List Pointer.Move := [.plus three, .backward five]
    let back : List Pointer.Move := [.minus three, .plusLeft five]
    (p.final [.plus three]).address = 28 ∧ (p.final ms).address = 0xFFFFFFFFFFFFFFE0 ∧
      p.final ms.reverse = p.final ms ∧ p.final (ms ++ back) = p := by
  intro three five p ms back
  obtain ⟨-, -, hperm, hundo⟩ := displacements_add_up.2.1 p ms
  exact ⟨by decide, by decide, hperm _ (List.reverse_perm ms), hundo back (by decide)⟩

end Endian
