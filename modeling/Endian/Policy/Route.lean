import Endian.Policy.Basic

/-!
# Routes to a policy

A `Call` asks a policy for one access to records. Four routes lead from an order to an answer;
`Route.run` takes one of them for every call of a sequence and reports each selection.
-/

namespace Endian.Policy

inductive Call where
  | get (k : Width) (bs : Bytes k.size)
  | getSigned (k : Width) (bs : Bytes k.size)
  | set (k : Width) (v : BitVec k.register)
  | compare (k : Width) (a b : Bytes k.size)
  | compareSigned (k : Width) (a b : Bytes k.size)

inductive Answer where
  | number (k : Width) (v : BitVec k.register)
  | signed (k : Width) (v : Int)
  | record (k : Width) (bs : Bytes k.size)
  | ordering (c : Ordering)
deriving DecidableEq

/-- The answer of a policy chosen by value. -/
def answer (p : Policy) : Call → Answer
  | .get k bs => .number k (p.get k bs)
  | .getSigned k bs => .signed k (p.getSigned k bs)
  | .set k v => .record k (p.set k v)
  | .compare k a b => .ordering (p.compare k a b)
  | .compareSigned k a b => .ordering (p.compareSigned k a b)

/-- The answer of the policy chosen by `P`. -/
def staticAnswer (P : Type) [StaticPolicy P] : Call → Answer
  | .get k bs => .number k (StaticPolicy.get P k bs)
  | .getSigned k bs => .signed k (StaticPolicy.getSigned P k bs)
  | .set k v => .record k (StaticPolicy.set P k v)
  | .compare k a b => .ordering (StaticPolicy.compare P k a b)
  | .compareSigned k a b => .ordering (StaticPolicy.compareSigned P k a b)

/-- A way from an order to an answer. -/
inductive Route where
  /-- Through the type. -/
  | static
  /-- Through the value that belongs to the type. -/
  | bridge
  /-- Through one of the two values by name. -/
  | singleton
  /-- Through the order, anew for every call. -/
  | selected
deriving DecidableEq, Repr

namespace Route

def answer (o : ByteOrder) : Route → Call → Answer
  | static, c =>
    match o with
    | .big => staticAnswer BigEndian c
    | .little => staticAnswer LittleEndian c
  | bridge, c =>
    match o with
    | .big => (StaticPolicy.runtime BigEndian).answer c
    | .little => (StaticPolicy.runtime LittleEndian).answer c
  | singleton, c =>
    match o with
    | .big => big.answer c
    | .little => little.answer c
  | selected, c => o.policy.answer c

/-- The reports of one call. -/
def reports (o : ByteOrder) : Route → List String
  | selected => [o.selectionText]
  | _ => []

/-- The answers to a sequence of calls, and the reports. -/
def run (o : ByteOrder) (r : Route) (calls : List Call) : List Answer × List String :=
  (calls.map (r.answer o), calls.flatMap fun _ => r.reports o)

end Route

end Endian.Policy
