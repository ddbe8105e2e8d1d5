import Endian.Failure
import Endian.Text.Spec

/-!
# Bounded settings

A `Setting b` is a number in the closed range of `b` together with a flag that tells an explicit
choice from the default. Layers are folded together with `assignFrom`, which copies explicit
choices only; `Valid` says what every operation keeps.
-/

namespace Endian

/-- A closed range and the default in it. -/
structure Bounds where
  default : UInt32
  min : UInt32
  max : UInt32
  min_le_default : min ≤ default := by decide
  default_le_max : default ≤ max := by decide
deriving DecidableEq

namespace Bounds

/-- The range, if the default lies in it. -/
def ofParts? (default min max : UInt32) : Option Bounds :=
  if h : min ≤ default ∧ default ≤ max then some ⟨default, min, max, h.1, h.2⟩ else none

def contains (b : Bounds) (v : UInt32) : Bool := b.min ≤ v && v ≤ b.max

theorem contains_iff {b : Bounds} {v : UInt32} : b.contains v = true ↔ b.min ≤ v ∧ v ≤ b.max := by
  simp [contains]

@[simp] theorem contains_default (b : Bounds) : b.contains b.default = true :=
  contains_iff.2 ⟨b.min_le_default, b.default_le_max⟩

end Bounds

structure Setting (b : Bounds) where
  value : UInt32
  isSet : Bool
deriving DecidableEq, Repr

namespace Setting

variable {b : Bounds}

/-- The default, not chosen by anyone. -/
def new : Setting b := ⟨b.default, false⟩

/-- A choice known to be in range. -/
def chosen (v : UInt32) (_ : b.contains v = true := by decide) : Setting b := ⟨v, true⟩

/-- The value is in range, and without a choice it is the default. -/
def Valid (s : Setting b) : Prop :=
  b.contains s.value = true ∧ (s.isSet = false → s.value = b.default)

/-- Chooses `v`. A value out of range is a fault and is never clamped. -/
def set (_ : Setting b) (v : UInt32) : Except Fault (Setting b) :=
  if b.contains v then .ok ⟨v, true⟩ else .error (.settingOutOfRange v b.min b.max)

/-- Chooses `v` if it is in range. -/
def trySet (_ : Setting b) (v : UInt32) : Except Error (Setting b) :=
  if !b.contains v then .error (.settingOutOfRange v b.min b.max) else .ok ⟨v, true⟩

/-- Checks that the stored value is in range. -/
def assertValid (s : Setting b) : Except Fault Unit :=
  if b.contains s.value then .ok () else .error .settingInvalid

def reset (_ : Setting b) : Setting b := new

/-- The destination after it took over the source's choice, and whether there was one. -/
def assignFrom (dst src : Setting b) : Setting b × Bool :=
  if src.isSet then (⟨src.value, true⟩, true) else (dst, false)

/-- A plain number after it took over the choice, and whether there was one. -/
def assignInto (s : Setting b) (target : UInt32) : UInt32 × Bool :=
  if s.isSet then (s.value, true) else (target, false)

/-- The number as the field asks for it. Debug output shows choice and range and takes no padding. -/
def render (s : Setting b) (spec : Text.Spec) : String :=
  match spec.style with
  | .debug =>
    let state := if s.isSet then "set" else "default"
    s!"{s.value} ({state}, [{b.min}, {b.max}])"
  | _ => spec.renderNat s.value.toNat

theorem valid_new : (new : Setting b).Valid := ⟨b.contains_default, fun _ => rfl⟩

theorem assertValid_of_valid {s : Setting b} (h : s.Valid) : s.assertValid = .ok () := by
  simp [assertValid, h.1]

end Setting

end Endian
