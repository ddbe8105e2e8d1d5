import Endian.Config.Basic

/-!
# Configurations side by side

A bank holds several configurations. `run` plays a sequence of steps on it; every step names the
configuration that it may change, and a step that fails changes none.
-/

namespace Endian.Config

abbrev Bank (n : Nat) := Vector Config n

inductive Preset where
  | standard
  | fast
  | best
deriving DecidableEq, Repr

def ofPreset : Preset → Config
  | .standard => standard
  | .fast => fast
  | .best => best

/-- What is done with a configuration. -/
inductive Act (n : Nat) where
  | load (p : Preset)
  | set (f : Field) (v : UInt32)
  | trySet (f : Field) (v : UInt32)
  | resetField (f : Field)
  | resetGroup (g : Group)
  | reset
  | mergeGroup (g : Group) (src : Fin n)
  | merge (src : Fin n)
  /-- Replaced by these layers, the lowest priority first. -/
  | layered (layers : List (Fin n))
  | equals (other : Fin n)
  | compact
  | pretty
deriving DecidableEq, Repr

/-- An act on one configuration of a bank. -/
structure Step (n : Nat) where
  target : Fin n
  act : Act n
deriving DecidableEq, Repr

inductive Reply where
  | silent
  | done
  | failed (f : Failure)
  | count (k : Nat)
  | verdict (yes : Bool)
  | text (s : String)
deriving DecidableEq, Repr

/-- The target after an act, the reply and the overrides that were reported. -/
structure Outcome where
  config : Config
  reply : Reply
  overrides : List Override := []
deriving DecidableEq

namespace Bank

variable {n : Nat}

def new (n : Nat) : Bank n := Vector.replicate n standard

def act (bank : Bank n) (c : Config) : Act n → Outcome
  | .load p => ⟨ofPreset p, .silent, []⟩
  | .set f v =>
    match c.set f v with
    | .ok c' => ⟨c', .done, []⟩
    | .error e => ⟨c, .failed (.fault e), []⟩
  | .trySet f v =>
    match c.trySet f v with
    | .ok c' => ⟨c', .done, []⟩
    | .error e => ⟨c, .failed (.error e), []⟩
  | .resetField f => ⟨c.resetField f, .done, []⟩
  | .resetGroup g => ⟨c.resetGroup g, .done, []⟩
  | .reset => ⟨c.reset, .done, []⟩
  | .mergeGroup g src =>
    let m := c.mergeGroup g (bank.get src)
    ⟨m.config, .count m.changed, m.overrides⟩
  | .merge src =>
    let m := c.merge (bank.get src)
    ⟨m.config, .count m.changed, m.overrides⟩
  | .layered layers =>
    let m := Config.layered (layers.map bank.get)
    ⟨m.config, .silent, m.overrides⟩
  | .equals other => ⟨c, .verdict (c == bank.get other), []⟩
  | .compact => ⟨c, .text c.tree.compact, []⟩
  | .pretty => ⟨c, .text (c.tree.pretty ""), []⟩

def step (bank : Bank n) (s : Step n) : Bank n × Outcome :=
  let r := act bank (bank.get s.target) s.act
  (bank.set s.target r.config s.target.isLt, r)

/-- The banks and outcomes after each of the steps. -/
def run (bank : Bank n) : List (Step n) → List (Bank n × Outcome)
  | [] => []
  | s :: ss => step bank s :: run (step bank s).1 ss

end Bank

end Endian.Config
