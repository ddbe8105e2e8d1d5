/-!
# Exchange

Putting a new value into a slot and taking out the old one, in a single step. `run` exchanges in a
vector of slots, one index after another.
-/

namespace Endian

/-- Values that can be exchanged in a slot. -/
class Exchange (α : Type) where
  /-- The old content of the slot and the new one, in this order. -/
  exchange (slot new : α) : α × α

namespace Exchange

instance : Exchange UInt64 := ⟨fun slot new => (slot, new)⟩

/-- Through the bit pattern. -/
instance : Exchange Int64 where
  exchange slot new :=
    let (old, bits) := exchange slot.toUInt64 new.toUInt64
    (old.toInt64, bits.toInt64)

/-- A slot that may be empty. -/
instance {α : Type} : Exchange (Option α) := ⟨fun slot new => (slot, new)⟩

variable {α : Type} [Exchange α] {n : Nat}

/-- The old content of slot `i` and the slots after the exchange. -/
def exchangeAt (slots : Vector α n) (i : Fin n) (new : α) : α × Vector α n :=
  let (old, now) := exchange (slots.get i) new
  (old, slots.set i now i.isLt)

/-- The old contents and the slots after each of the exchanges. -/
def run (slots : Vector α n) : List (Fin n × α) → List (α × Vector α n)
  | [] => []
  | (i, new) :: rest =>
    let r := exchangeAt slots i new
    r :: run r.2 rest

theorem exchange_int64 (slot new : Int64) : exchange slot new = (slot, new) := by
  simp [exchange]

end Exchange

end Endian
