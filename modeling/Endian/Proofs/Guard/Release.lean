import Endian.Guard.Scope
import Mathlib.Data.List.ReduceOption

/-!
# What a release does

`Guard.held` are the objects in the owned slots and `Event.begun` the objects whose release a list
of events starts. `Released.Ends` is all that a release of slots can do: it empties them all, or it
stops behind the first object at fault (`releaseSlots_ends`). What is kept of the guard as a whole
follows: the objects whose release starts and the objects still held are together the objects held
before, in the same order (`begun_append_held_release`), slots that are not owned stay as they are
(`slots_release_of_le`), and slots that are given up are empty (`slots_release_of_lt`).
-/

namespace Endian

variable {R α : Type}

/-! ### Objects at work -/

/-- The object whose release an event starts. -/
def Event.begun? : Event R → Option R
  | .releasing _ r => some r
  | .discarding r => some r
  | .dropped _ => none

/-- The objects whose release starts, in order. -/
def Event.begun (events : List (Event R)) : List R := events.filterMap Event.begun?

namespace Event

@[simp] theorem begun_nil : begun ([] : List (Event R)) = [] := rfl

@[simp] theorem begun_append (a b : List (Event R)) : begun (a ++ b) = begun a ++ begun b :=
  List.filterMap_append

@[simp] theorem begun_releasing (i : Nat) (r : R) (events : List (Event R)) :
    begun (.releasing i r :: events) = r :: begun events := rfl

@[simp] theorem begun_discarding (r : R) (events : List (Event R)) :
    begun (.discarding r :: events) = r :: begun events := rfl

@[simp] theorem begun_droppedEvents (w : Wreck) :
    begun (Guard.droppedEvents w : List (Event R)) = [] := by
  unfold begun Guard.droppedEvents
  rw [List.filterMap_map, List.filterMap_eq_nil_iff]
  intro id _
  rfl

end Event

namespace Guard

/-- The objects in the owned slots, in order. -/
def held (g : Guard R) : List R := (g.slots.take g.count).reduceOption

variable [Owned R α]

/-- An object can be released without a fault. -/
def Sound (unwinding : Bool) (r : R) : Prop := (Owned.destroy unwinding r).fault = none

/-! ### Slots -/

/-- What a release of slots can do. -/
inductive Released.Ends (unwinding : Bool) (slots : List (Option R)) (out : Released R) : Prop where
  /-- No object is at fault, and all slots are empty. -/
  | emptied (sound : ∀ r ∈ slots.reduceOption, Sound unwinding r)
      (left : out.slots = List.replicate slots.length none)
      (begun : Event.begun out.events = slots.reduceOption)
      (fault : out.fault = none)
  /-- The first object at fault ends the release; the slots up to its own are empty. -/
  | stopped (front : List (Option R)) (r : R) (rest : List (Option R)) (f : Fault)
      (split : slots = front ++ some r :: rest)
      (sound : ∀ r ∈ front.reduceOption, Sound unwinding r)
      (bad : (Owned.destroy unwinding r).fault = some f)
      (left : out.slots = List.replicate (front.length + 1) none ++ rest)
      (begun : Event.begun out.events = front.reduceOption ++ [r])
      (fault : out.fault = some f)

theorem releaseSlots_none (unwinding : Bool) (i : Nat) (rest : List (Option R)) :
    releaseSlots unwinding i (none :: rest) =
      { releaseSlots unwinding (i + 1) rest with
        slots := none :: (releaseSlots unwinding (i + 1) rest).slots } := rfl

theorem releaseSlots_fault {unwinding : Bool} {r : R} {f : Fault}
    (h : (Owned.destroy unwinding r).fault = some f) (i : Nat) (rest : List (Option R)) :
    releaseSlots unwinding i (some r :: rest) =
      ⟨none :: rest, .releasing i r :: droppedEvents (Owned.destroy unwinding r), some f⟩ := by
  simp only [releaseSlots, Exchange.exchange, h]

theorem releaseSlots_sound {unwinding : Bool} {r : R} (h : Sound unwinding r) (i : Nat)
    (rest : List (Option R)) :
    releaseSlots unwinding i (some r :: rest) =
      ⟨none :: (releaseSlots unwinding (i + 1) rest).slots,
        .releasing i r :: droppedEvents (Owned.destroy unwinding r) ++
          (releaseSlots unwinding (i + 1) rest).events,
        (releaseSlots unwinding (i + 1) rest).fault⟩ := by
  unfold Sound at h
  simp only [releaseSlots, Exchange.exchange, h]

theorem releaseSlots_ends (unwinding : Bool) (i : Nat) (slots : List (Option R)) :
    (releaseSlots unwinding i slots).Ends unwinding slots := by
  induction slots generalizing i with
  | nil => exact .emptied (fun _ h => by cases h) rfl rfl rfl
  | cons slot rest ih =>
    cases slot with
    | none =>
      rw [releaseSlots_none]
      cases ih (i + 1) with
      | emptied sound left begun fault =>
        exact .emptied sound (by rw [left]; rfl) begun fault
      | stopped front r rest' f split sound bad left begun fault =>
        exact .stopped (none :: front) r rest' f (by rw [split]; rfl) sound bad (by rw [left]; rfl)
          begun fault
    | some r =>
      cases hf : (Owned.destroy unwinding r).fault with
      | some f =>
        rw [releaseSlots_fault hf]
        exact .stopped [] r rest f rfl (fun _ h => by cases h) hf rfl (by simp) rfl
      | none =>
        rw [releaseSlots_sound hf]
        have hcons (front : List (Option R)) (h : ∀ r ∈ front.reduceOption, Sound unwinding r) :
            ∀ r' ∈ (some r :: front).reduceOption, Sound unwinding r' := by
          rw [List.reduceOption_cons_of_some]
          exact List.forall_mem_cons.2 ⟨hf, h⟩
        cases ih (i + 1) with
        | emptied sound left begun fault =>
          refine .emptied (hcons _ sound) (by rw [left]; rfl) ?_ fault
          simp [begun]
        | stopped front r' rest' f split sound bad left begun fault =>
          refine .stopped (some r :: front) r' rest' f (by rw [split]; rfl) (hcons _ sound) bad
            (by rw [left]; rfl) ?_ fault
          simp [begun]

/-! ### The guard -/

theorem release_of_none {unwinding : Bool} {g : Guard R}
    (h : (releaseSlots unwinding 0 (g.slots.take g.count)).fault = none) :
    g.release unwinding =
      ⟨⟨(releaseSlots unwinding 0 (g.slots.take g.count)).slots ++ g.slots.drop g.count, 0⟩,
        (releaseSlots unwinding 0 (g.slots.take g.count)).events, .ok ()⟩ := by
  simp only [release, h]

theorem release_of_some {unwinding : Bool} {g : Guard R} {f : Fault}
    (h : (releaseSlots unwinding 0 (g.slots.take g.count)).fault = some f) :
    g.release unwinding =
      ⟨⟨(releaseSlots unwinding 0 (g.slots.take g.count)).slots ++ g.slots.drop g.count, g.count⟩,
        (releaseSlots unwinding 0 (g.slots.take g.count)).events, .error (.fault f)⟩ := by
  simp only [release, h]

theorem slots_release (unwinding : Bool) (g : Guard R) :
    (g.release unwinding).guard.slots =
      (releaseSlots unwinding 0 (g.slots.take g.count)).slots ++ g.slots.drop g.count := by
  unfold release
  dsimp only
  split <;> rfl

theorem events_release (unwinding : Bool) (g : Guard R) :
    (g.release unwinding).events = (releaseSlots unwinding 0 (g.slots.take g.count)).events := by
  unfold release
  dsimp only
  split <;> rfl

theorem count_release_le (unwinding : Bool) (g : Guard R) :
    (g.release unwinding).guard.count ≤ g.count := by
  unfold release
  dsimp only
  split
  · exact Nat.zero_le _
  · exact Nat.le_refl _

/-- Slots that are not owned stay as they are. -/
theorem slots_release_of_le (unwinding : Bool) (g : Guard R) {i : Nat} (h : g.count ≤ i) :
    (g.release unwinding).guard.slots[i]? = g.slots[i]? := by
  have hlen := length_releaseSlots unwinding 0 (g.slots.take g.count)
  rw [List.length_take] at hlen
  rw [slots_release, List.getElem?_append_right (by omega), List.getElem?_drop, hlen]
  rcases Nat.le_total g.count g.slots.length with hle | hle
  · rw [Nat.min_eq_left hle, Nat.add_sub_cancel' h]
  · rw [List.getElem?_eq_none (by omega), List.getElem?_eq_none (by omega)]

theorem take_slots_release (unwinding : Bool) (g : Guard R) :
    (g.release unwinding).guard.slots.take g.count =
      (releaseSlots unwinding 0 (g.slots.take g.count)).slots := by
  have hlen := length_releaseSlots unwinding 0 (g.slots.take g.count)
  rw [List.length_take] at hlen
  rw [slots_release]
  rcases Nat.le_total g.count g.slots.length with hle | hle
  · exact List.take_left' (by omega)
  · rw [List.drop_eq_nil_of_le hle, List.append_nil]
    exact List.take_of_length_le (by omega)

/-- Slots that are given up are empty. -/
theorem slots_release_of_lt (unwinding : Bool) (g : Guard R) {i : Nat} (h : i < g.count)
    (h' : (g.release unwinding).guard.count ≤ i) :
    (g.release unwinding).guard.slots[i]?.join = none := by
  cases releaseSlots_ends unwinding 0 (g.slots.take g.count) with
  | emptied sound left begun fault =>
    rw [← List.getElem?_take_of_lt h, take_slots_release, left, List.getElem?_replicate]
    split <;> rfl
  | stopped front r rest f split sound bad left begun fault =>
    rw [release_of_some fault] at h'
    exact absurd h (Nat.not_lt.2 h')

/-- The objects whose release starts come first among those held, and the others stay in their
slots. -/
theorem begun_append_left_release (unwinding : Bool) (g : Guard R) :
    Event.begun (g.release unwinding).events ++
      ((g.release unwinding).guard.slots.take g.count).reduceOption = g.held := by
  rw [take_slots_release, events_release]
  cases releaseSlots_ends unwinding 0 (g.slots.take g.count) with
  | emptied sound left begun fault =>
    rw [left, begun, List.reduceOption_replicate_none, List.append_nil]
    rfl
  | stopped front r rest f split sound bad left begun fault =>
    rw [left, begun, held, split]
    simp [List.reduceOption_append]

/-- What is left in the slots is still owned. -/
theorem held_release (unwinding : Bool) (g : Guard R) :
    (g.release unwinding).guard.held =
      ((g.release unwinding).guard.slots.take g.count).reduceOption := by
  rw [take_slots_release]
  cases releaseSlots_ends unwinding 0 (g.slots.take g.count) with
  | emptied sound left begun fault =>
    rw [release_of_none fault, left, List.reduceOption_replicate_none]
    rfl
  | stopped front r rest f split sound bad left begun fault =>
    have h := take_slots_release unwinding g
    rw [release_of_some fault] at h ⊢
    rw [held, h]

theorem begun_append_held_release (unwinding : Bool) (g : Guard R) :
    Event.begun (g.release unwinding).events ++ (g.release unwinding).guard.held = g.held := by
  rw [held_release, begun_append_left_release]

/-- A scope that is left releases its guard. -/
theorem finish_leave (g : Guard R) :
    (g.finish .leave).2 = (g.releaseAll.guard.slots, g.releaseAll.events) := by
  unfold finish
  dsimp only
  split <;> rfl

/-- An end without a fault leaves nothing owned. -/
theorem count_of_finish_leave {g : Guard R} (h : (g.finish .leave).1 = .left) :
    g.releaseAll.guard.count = 0 := by
  rw [releaseAll]
  cases releaseSlots_ends false 0 (g.slots.take g.count) with
  | emptied sound left begun fault => rw [release_of_none fault]
  | stopped front r rest f split sound bad left begun fault =>
    simp only [finish, releaseAll, release_of_some fault] at h
    cases h

end Guard

end Endian
