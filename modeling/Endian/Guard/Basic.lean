import Endian.Exchange
import Endian.Guard.Owned

/-!
# Release guards

A `Guard` owns the first `count` slots of a table. A new object goes into the next slot; a release
empties the owned slots in order, each before its object is destroyed, so that no object is
released twice. Every operation reports its `Event`s: releases that start, objects that a full
table rejects, and the identities that destructions record.

A release that faults stops: the slot at fault is empty, later slots are untouched, and the count
stays, so that a later release goes on behind it.
-/

namespace Endian

structure Guard (R : Type) where
  slots : List (Option R)
  count : Nat
deriving DecidableEq, Repr

/-- What is seen of a guard at work. -/
inductive Event (R : Type) where
  /-- The release of the object in a slot starts. -/
  | releasing (slot : Nat) (object : R)
  /-- An object that found no slot is destroyed. -/
  | discarding (object : R)
  /-- A destruction records an identity. -/
  | dropped (id : Nat)
deriving DecidableEq, Repr

/-- What an operation leaves, reports and answers. -/
structure Outcome (R α : Type) where
  guard : Guard R
  events : List (Event R)
  result : Except Failure α

namespace Guard

variable {R α : Type} [Owned R α]

/-- A guard that owns nothing. What the slots hold is ignored. -/
def new (slots : List (Option R)) : Guard R := ⟨slots, 0⟩

/-- A guard that owns the first `count` slots as they are. -/
def adopt (slots : List (Option R)) (count : Nat) : Except Fault (Guard R) :=
  if count ≤ slots.length then .ok ⟨slots, count⟩ else .error .guardOverclaimed

def capacity (g : Guard R) : Nat := g.slots.length

/-! ### Storing -/

/-- The next slot filled. -/
def store (g : Guard R) (r : R) : Guard R := ⟨g.slots.set g.count (some r), g.count + 1⟩

def droppedEvents (w : Wreck) : List (Event R) := w.ids.map .dropped

/-- Puts an object into the next slot and answers its index. A full table is a fault, and the
object is destroyed while that fault unwinds. -/
def push (g : Guard R) (r : R) : Outcome R Nat :=
  if g.count < g.capacity then ⟨g.store r, [], .ok g.count⟩
  else ⟨g, .discarding r :: droppedEvents (Owned.destroy true r), .error (.fault (.guardFull g.capacity))⟩

/-- Puts an object into the next slot and answers its index. A full table is an error, reported with
the place where the check stands; the object is destroyed, and a fault in that is answered instead. -/
def tryPush (g : Guard R) (site : Site) (r : R) : Outcome R Nat :=
  if g.count ≥ g.capacity then
    let w := Owned.destroy false r
    ⟨g, .discarding r :: droppedEvents w, .error <|
      match w.fault with
      | some f => .fault f
      | none => .error (.malformed (guardFullText g.capacity) site)⟩
  else ⟨g.store r, [], .ok g.count⟩

/-! ### Looking -/

/-- The content of an owned slot. -/
def owned? (g : Guard R) (i : Nat) : Option R := if i < g.count then g.slots[i]?.join else none

/-- The first object of an owned slot. -/
def get? (g : Guard R) (i : Nat) : Option α := (g.owned? i).bind Owned.first?

/-- The row in an owned slot. -/
def getRow? (g : Guard R) (i : Nat) : Option (List α) := (g.owned? i).bind Owned.row?

/-- Whether a slot of the table is filled, owned or not. -/
def filled? (g : Guard R) (i : Nat) : Option Bool := g.slots[i]?.map Option.isSome

/-! ### Releasing -/

/-- What is left of slots after their release, with its events and fault. -/
structure Released (R : Type) where
  slots : List (Option R)
  events : List (Event R)
  fault : Option Fault := none

/-- Releases slots in order, the first of which has the given index, up to a fault. -/
def releaseSlots (unwinding : Bool) : Nat → List (Option R) → Released R
  | _, [] => ⟨[], [], none⟩
  | i, slot :: rest =>
    let (item, cleared) := Exchange.exchange slot none
    match item with
    | none =>
      let r := releaseSlots unwinding (i + 1) rest
      { r with slots := cleared :: r.slots }
    | some object =>
      let w := Owned.destroy unwinding object
      let events := .releasing i object :: droppedEvents w
      match w.fault with
      | some f => ⟨cleared :: rest, events, some f⟩
      | none =>
        let r := releaseSlots unwinding (i + 1) rest
        ⟨cleared :: r.slots, events ++ r.events, r.fault⟩

/-- Releases every owned slot. -/
def release (unwinding : Bool) (g : Guard R) : Outcome R Unit :=
  let r := releaseSlots unwinding 0 (g.slots.take g.count)
  let slots := r.slots ++ g.slots.drop g.count
  match r.fault with
  | none => ⟨⟨slots, 0⟩, r.events, .ok ()⟩
  | some f => ⟨⟨slots, g.count⟩, r.events, .error (.fault f)⟩

/-- Releases every owned slot in the ordinary course. -/
def releaseAll (g : Guard R) : Outcome R Unit := g.release false

theorem length_releaseSlots (unwinding : Bool) (i : Nat) (slots : List (Option R)) :
    (releaseSlots unwinding i slots).slots.length = slots.length := by
  induction slots generalizing i with
  | nil => rfl
  | cons slot rest ih =>
    rcases slot with _ | object
    · exact congrArg (· + 1) (ih (i + 1))
    · simp only [releaseSlots, Exchange.exchange]
      split
      · rfl
      · exact congrArg (· + 1) (ih (i + 1))

theorem capacity_release (unwinding : Bool) (g : Guard R) :
    (g.release unwinding).guard.capacity = g.capacity := by
  simp only [release]
  split
  all_goals
    simp only [capacity, List.length_append, length_releaseSlots, List.length_take, List.length_drop]
    omega

end Guard

namespace Event

variable {R α : Type} [Owned R α]

/-- The report of an event, if there is one. -/
def text? : Event R → Option String
  | releasing slot _ =>
    let kind := (Owned.strategy R).name
    some s!"TRACE release guard: releasing slot {slot} ({kind})"
  | _ => none

def droppedId? : Event R → Option Nat
  | dropped id => some id
  | _ => none

end Event

end Endian
