import Endian.Guard.Basic

/-!
# Scopes

A scope makes a guard over a table, plays a sequence of steps on it and ends. However it ends, the
table is there for the next scope; unless the guard is forgotten, its slots are released first.
-/

namespace Endian.Guard

/-- How a scope makes its guard. -/
inductive Start where
  | new
  | adopt (count : Nat)
deriving DecidableEq, Repr

inductive Step (R : Type) where
  | push (r : R)
  | tryPush (site : Site) (r : R)
  | get (i : Nat)
  | getRow (i : Nat)
  | filled (i : Nat)
  | capacity
  | releaseAll
deriving DecidableEq, Repr

/-- How a scope ends. -/
inductive Finish where
  /-- The guard is released. -/
  | leave
  /-- A fault of the caller's own; the guard is released while it unwinds. -/
  | raise (text : String)
  /-- The guard is forgotten, its slots stay as they are. -/
  | forget
deriving DecidableEq, Repr

structure Scope (R : Type) where
  start : Start
  steps : List (Step R)
  finish : Finish
deriving DecidableEq, Repr

inductive Reply (α : Type) where
  | done
  | failed (f : Failure)
  | index (i : Nat)
  | item (a : Option α)
  | row (l : Option (List α))
  /-- Whether a slot is filled, if it is in the table. -/
  | filled (b : Option Bool)
  | capacity (n : Nat)
deriving DecidableEq, Repr

inductive Exit where
  | left
  | forgotten
  | faulted (f : Fault)
deriving DecidableEq, Repr

/-- What a step leaves, reports and answers. -/
structure Entry (R α : Type) where
  guard : Guard R
  events : List (Event R)
  reply : Reply α
deriving DecidableEq, Repr

/-- What a scope showed, and the table that it left. -/
structure Report (R α : Type) where
  entries : List (Entry R α)
  exit : Exit
  slots : List (Option R)
  events : List (Event R) := []
deriving DecidableEq, Repr

variable {R α : Type} [Owned R α]

/-- The guard with which a scope starts. -/
def Start.guard (slots : List (Option R)) : Start → Except Fault (Guard R)
  | new => .ok (Guard.new slots)
  | adopt n => Guard.adopt slots n

/-- The entry of an operation, with the reply to its answer. -/
def Entry.ofOutcome {β : Type} (reply : β → Reply α) (r : Outcome R β) : Entry R α where
  guard := r.guard
  events := r.events
  reply := match r.result with
    | .ok b => reply b
    | .error f => .failed f

def step (g : Guard R) : Step R → Entry R α
  | .push r => .ofOutcome .index (g.push r)
  | .tryPush site r => .ofOutcome .index (g.tryPush site r)
  | .get i => ⟨g, [], .item (g.get? i)⟩
  | .getRow i => ⟨g, [], .row (g.getRow? i)⟩
  | .filled i => ⟨g, [], .filled (g.filled? i)⟩
  | .capacity => ⟨g, [], .capacity g.capacity⟩
  | .releaseAll => .ofOutcome (fun _ => .done) g.releaseAll

/-- The entries of a sequence of steps, and the guard after it. -/
def run (g : Guard R) : List (Step R) → List (Entry R α) × Guard R
  | [] => ([], g)
  | s :: ss =>
    let e := g.step s
    let (es, last) := run e.guard ss
    (e :: es, last)

/-- The guard's end: how the scope exits, the table that is left, and the events. -/
def finish (g : Guard R) : Finish → Exit × List (Option R) × List (Event R)
  | .leave =>
    let r := g.releaseAll
    match r.result with
    | .error (.fault f) => (.faulted f, r.guard.slots, r.events)
    | _ => (.left, r.guard.slots, r.events)
  | .raise text =>
    let r := g.release true
    (.faulted (.raised text), r.guard.slots, r.events)
  | .forget => (.forgotten, g.slots, [])

namespace Scope

def run (slots : List (Option R)) (s : Scope R) : Report R α :=
  match s.start.guard slots with
  | .error f => { entries := [], exit := .faulted f, slots := slots }
  | .ok g =>
    let (entries, last) := g.run s.steps
    let (exit, left, events) := last.finish s.finish
    ⟨entries, exit, left, events⟩

/-- The reports of scopes over one table. -/
def runAll (slots : List (Option R)) : List (Scope R) → List (Report R α)
  | [] => []
  | s :: ss =>
    let r := s.run slots
    r :: runAll r.slots ss

end Scope

end Endian.Guard
