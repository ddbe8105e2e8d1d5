import Endian.Record

/-!
# Policies

Code that handles both byte orders takes the order as a policy, in one of two ways.

- `StaticPolicy P`: the order is chosen by the type `P`, either `BigEndian` or `LittleEndian`.
- `Policy`: the order is chosen by a value. There are two of them, `Policy.big` and
  `Policy.little`; `StaticPolicy.runtime` and `ByteOrder.policy` lead to them.
-/

namespace Endian

/-! ### Chosen by type -/

/-- A byte order chosen by the type `P`, with its tagged integers and its accesses to records. -/
class StaticPolicy (P : Type) where
  order : ByteOrder
  isBig : Bool
  /-- The name of the type. -/
  label : String
  /-- The types of tagged integers of 16, 32 and 64 bits that belong to the policy, each told by its
  order. -/
  tagged16 : ByteOrder
  tagged32 : ByteOrder
  tagged64 : ByteOrder
  get : (k : Width) → Bytes k.size → BitVec k.register
  getSigned : (k : Width) → Bytes k.size → Int
  set : (k : Width) → BitVec k.register → Bytes k.size
  compare : (k : Width) → Bytes k.size → Bytes k.size → Ordering
  compareSigned : (k : Width) → Bytes k.size → Bytes k.size → Ordering

structure BigEndian where
deriving DecidableEq, Repr

structure LittleEndian where
deriving DecidableEq, Repr

instance : StaticPolicy BigEndian where
  order := .big
  isBig := true
  label := "BePolicy"
  tagged16 := .big
  tagged32 := .big
  tagged64 := .big
  get k := k.get .big
  getSigned k := k.getSigned .big
  set k := k.set .big
  compare k := k.compare .big
  compareSigned k := k.compareSigned .big

instance : StaticPolicy LittleEndian where
  order := .little
  isBig := false
  label := "LePolicy"
  tagged16 := .little
  tagged32 := .little
  tagged64 := .little
  get k := k.get .little
  getSigned k := k.getSigned .little
  set k := k.set .little
  compare k := k.compare .little
  compareSigned k := k.compareSigned .little

/-- The order of the policy's tagged integers of a width; there are none of 24 bits. -/
def StaticPolicy.taggedOrder? (P : Type) [StaticPolicy P] : Width → Option ByteOrder
  | .w16 => some (tagged16 P)
  | .w24 => none
  | .w32 => some (tagged32 P)
  | .w64 => some (tagged64 P)

/-! ### Chosen by value -/

/-- A byte order chosen by a value, with its accesses to records. -/
structure Policy where
  order : ByteOrder
  get : (k : Width) → Bytes k.size → BitVec k.register
  getSigned : (k : Width) → Bytes k.size → Int
  set : (k : Width) → BitVec k.register → Bytes k.size
  compare : (k : Width) → Bytes k.size → Bytes k.size → Ordering
  compareSigned : (k : Width) → Bytes k.size → Bytes k.size → Ordering

/-- The policy that forwards every call to the one chosen by `P`. -/
def StaticPolicy.runtime (P : Type) [StaticPolicy P] : Policy where
  order := order P
  get := get P
  getSigned := getSigned P
  set := set P
  compare := compare P
  compareSigned := compareSigned P

namespace Policy

def big : Policy := StaticPolicy.runtime BigEndian

def little : Policy := StaticPolicy.runtime LittleEndian

def isBig (p : Policy) : Bool := p.order == .big

def isHost (p : Policy) : Bool := p.order.isHost

/-- The name with the order that it applies. -/
def text (p : Policy) : String := "Dispatch(" ++ p.order.name ++ ")"

end Policy

/-- The policy of an order. -/
def ByteOrder.policy : ByteOrder → Policy
  | .big => .big
  | .little => .little

/-- The report that the policy of an order was selected. -/
def ByteOrder.selectionText (o : ByteOrder) : String :=
  s!"DEBUG selecting {o.name}-endian run-time policy"

end Endian
