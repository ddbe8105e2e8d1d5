import Endian.Failure

/-!
# Owned objects

What a slot can own, and what is seen when it is destroyed. A `Boxed` object is destroyed by
itself, a `Row` element by element, a `Block` without running any destruction.

A bomb is an object whose destruction is a fault. The fault unwinds: whatever else has to be
destroyed then is, and a bomb that goes off during unwinding is no further fault.
-/

namespace Endian

/-- What the destruction of an object shows. -/
inductive Fate where
  | silent
  | recorded (id : Nat)
  /-- Recorded, and then a fault. -/
  | bomb (id : Nat)
deriving DecidableEq, Repr

class Element (α : Type) where
  fate : α → Fate := fun _ => .silent

/-- An object with an identity, which may be a bomb. -/
structure Tracked where
  id : Nat
  isBomb : Bool := false
deriving DecidableEq, Repr

instance : Element Tracked := ⟨fun t => if t.isBomb then .bomb t.id else .recorded t.id⟩
instance : Element String := {}
instance : Element UInt8 := {}
instance : Element UInt64 := {}
instance : Element Unit := {}
instance {w : Nat} : Element (BitVec w) := {}

/-! ### Destruction -/

/-- What a destruction recorded, and its fault. -/
structure Wreck where
  ids : List Nat := []
  fault : Option Fault := none
deriving DecidableEq, Repr

/-- Destroys all the objects in turn. The first bomb is the fault, unless the destruction is part
of unwinding. -/
def destroyAll {α : Type} [Element α] (unwinding : Bool) : List α → Wreck
  | [] => {}
  | a :: rest =>
    match Element.fate a with
    | .silent => destroyAll unwinding rest
    | .recorded id =>
      let w := destroyAll unwinding rest
      { w with ids := id :: w.ids }
    | .bomb id =>
      if unwinding then
        let w := destroyAll true rest
        { w with ids := id :: w.ids }
      else ⟨id :: (destroyAll true rest).ids, some (.bomb id)⟩

/-! ### Handles -/

/-- How a slot's content is made and released. -/
inductive Strategy where
  | object
  | array
  | raw
deriving DecidableEq, Repr

def Strategy.name : Strategy → String
  | object => "object"
  | array => "array"
  | raw => "raw"

/-- Handles of type `R` own objects of type `α`. -/
class Owned (R : Type) (α : outParam Type) where
  strategy : Strategy
  /-- The first of the objects, if there is one. -/
  first? : R → Option α
  /-- All the objects, where they form a row. -/
  row? : R → Option (List α)
  destroy : Bool → R → Wreck

/-- One object. -/
structure Boxed (α : Type) where
  value : α
deriving DecidableEq, Repr

/-- A row of objects of any length. -/
structure Row (α : Type) where
  items : List α
deriving DecidableEq, Repr

/-- Plain data in memory of its own, which no destruction runs for. -/
structure Block (α : Type) where
  value : α
deriving DecidableEq, Repr

variable {α : Type}

instance [Element α] : Owned (Boxed α) α where
  strategy := .object
  first? b := some b.value
  row? _ := none
  destroy unwinding b := destroyAll unwinding [b.value]

instance [Element α] : Owned (Row α) α where
  strategy := .array
  first? r := r.items.head?
  row? r := some r.items
  destroy unwinding r := destroyAll unwinding r.items

instance : Owned (Block α) α where
  strategy := .raw
  first? b := some b.value
  row? _ := none
  destroy _ _ := {}

end Endian
