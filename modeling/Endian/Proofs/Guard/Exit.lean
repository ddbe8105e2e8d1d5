import Endian.Proofs.Guard.Release

/-!
# What a guard leaves behind

A scope that is left releases its guard once and for all: what that release does not reach is not
released any more. `leave_clears_iff` says when it reaches everything: no owned object is at fault,
except perhaps the last one. An object at fault that is followed by another one leaves all objects
behind it in their slots (`leave_leaks`).
-/

namespace Endian.Guard

variable {R α : Type} [Owned R α]

/-- The guard's end leaves its slots empty, and the release of each object in them has started once,
in order. -/
def Clears (g : Guard R) : Prop :=
  (∀ i < g.count, (g.finish .leave).2.1[i]?.join = none) ∧
    Event.begun (g.finish .leave).2.2 = g.held

theorem reduceOption_take_eq_nil_iff {slots : List (Option R)} {n : Nat} :
    (slots.take n).reduceOption = [] ↔ ∀ i < n, slots[i]?.join = none := by
  rw [List.reduceOption, List.filterMap_eq_nil_iff]
  constructor
  · intro h i hi
    cases hslot : slots[i]? with
    | none => rfl
    | some slot =>
      exact h slot (List.mem_of_getElem? (i := i) (by rw [List.getElem?_take_of_lt hi, hslot]))
  · intro h slot hslot
    obtain ⟨i, hi⟩ := List.mem_iff_getElem?.1 hslot
    rw [List.getElem?_take] at hi
    split at hi
    · next hlt =>
      have := h i hlt
      rwa [hi] at this
    · cases hi

/-- Nothing is left in the slots exactly if only the last object may be at fault. -/
theorem left_eq_nil_iff (g : Guard R) :
    (g.releaseAll.guard.slots.take g.count).reduceOption = [] ↔
      ∀ r ∈ g.held.dropLast, Sound false r := by
  have hleft := take_slots_release false g
  rw [releaseAll, hleft]
  cases releaseSlots_ends false 0 (g.slots.take g.count) with
  | emptied sound left begun fault =>
    rw [left, List.reduceOption_replicate_none]
    exact ⟨fun _ r hr => sound r ((List.dropLast_sublist _).subset hr), fun _ => rfl⟩
  | stopped front r rest f split sound bad left begun fault =>
    have hheld : g.held = front.reduceOption ++ r :: rest.reduceOption := by
      rw [held, split, List.reduceOption_append, List.reduceOption_cons_of_some]
    have hrest : (List.replicate (front.length + 1) none ++ rest).reduceOption =
        rest.reduceOption := by
      rw [List.reduceOption_append, List.reduceOption_replicate_none, List.nil_append]
    rw [left, hrest, hheld]
    constructor
    · intro h
      rw [h, List.dropLast_concat]
      exact sound
    · intro h
      by_contra hne
      -- The object at fault is followed by another one, so it is not the last.
      rw [List.dropLast_append_of_ne_nil (by simp), List.dropLast_cons_of_ne_nil hne] at h
      have hr := h r (by simp)
      rw [Sound, bad] at hr
      cases hr

/-- The guard's end clears its slots exactly if no object but the last one held is at fault. -/
theorem leave_clears_iff (g : Guard R) : g.Clears ↔ ∀ r ∈ g.held.dropLast, Sound false r := by
  have happ := begun_append_left_release false g
  rw [← left_eq_nil_iff, Clears, finish_leave, ← reduceOption_take_eq_nil_iff]
  refine ⟨fun h => h.1, fun h => ⟨h, ?_⟩⟩
  rw [releaseAll] at h ⊢
  rwa [h, List.append_nil] at happ

/-- A bomb in the first of two slots: the guard's end stops there, the object in the second slot is
not released. -/
theorem leave_leaks :
    let g : Guard (Boxed Tracked) :=
      ((Guard.new [none, none]).run [.push ⟨⟨1, true⟩⟩, .push ⟨⟨2, false⟩⟩]).2
    g.count = 2 ∧ g.finish .leave = (.faulted (.bomb 1), [none, some ⟨⟨2, false⟩⟩],
      [.releasing 0 ⟨⟨1, true⟩⟩, .dropped 1]) ∧ ¬ g.Clears := by
  refine ⟨rfl, rfl, fun h => ?_⟩
  exact absurd (h.1 1 (by decide)) (by decide)

end Endian.Guard
