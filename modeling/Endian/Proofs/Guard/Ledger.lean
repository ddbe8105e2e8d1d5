import Endian.Proofs.Guard.Release

/-!
# The ledger of a guard

A `Ledger` follows a guard through a scope and keeps the books beside it: the objects that the guard
has been given, those whose release has started, and the greatest count so far. `Ledger.Balanced` is
what every step keeps, a release that stops at a fault included: the objects given are, in some
order, those held and those whose release has started, and the slots that are owned no more are empty
(`balanced_after`, `balanced_of_mem_run`). Where no object is given twice, each one is therefore in one
place only (`place_of_nodup`).

`run_guard` and `getLast?_run` tie the books to the scope itself: the moments of the ledger are the
entries of the scope's report, and the release at its end is the last of them.
-/

namespace Endian.Guard

variable {R α : Type} [Owned R α]

/-! ### Objects in slots -/

theorem mem_held_iff {g : Guard R} {r : R} :
    r ∈ g.held ↔ ∃ i < g.count, g.slots[i]? = some (some r) := by
  unfold held
  rw [List.reduceOption_mem_iff, List.mem_iff_getElem?]
  refine exists_congr fun i => ?_
  rw [List.getElem?_take]
  split
  · next h => simp [h]
  · next h => simp [h]

theorem getElem?_unique {slots : List (Option R)} (hd : slots.reduceOption.Nodup) {i j : Nat}
    {r : R} (hi : slots[i]? = some (some r)) (hj : slots[j]? = some (some r)) : i = j := by
  induction slots generalizing i j with
  | nil => cases hi
  | cons slot rest ih =>
    have hrest : rest.reduceOption.Nodup := by
      cases slot with
      | none => exact hd
      | some r' => exact (List.nodup_cons.1 hd).2
    -- The object of the first slot is in no other one.
    have hfirst (k : Nat) (h : slot = some r) : rest[k]? ≠ some (some r) := by
      intro hk
      subst h
      exact (List.nodup_cons.1 hd).1 (List.reduceOption_mem_iff.2 (List.mem_of_getElem? hk))
    cases i with
    | zero =>
      cases j with
      | zero => rfl
      | succ j => exact absurd hj (hfirst j (Option.some.inj hi))
    | succ i =>
      cases j with
      | zero => exact absurd hi (hfirst i (Option.some.inj hj))
      | succ j => exact congrArg (· + 1) (ih hrest hi hj)

theorem slot_unique {g : Guard R} (hd : g.held.Nodup) {i j : Nat} {r : R} (hi : i < g.count)
    (hj : j < g.count) (hri : g.slots[i]? = some (some r)) (hrj : g.slots[j]? = some (some r)) :
    i = j := by
  refine getElem?_unique hd (r := r) ?_ ?_
  · rwa [List.getElem?_take_of_lt hi]
  · rwa [List.getElem?_take_of_lt hj]

/-! ### Full tables -/

theorem push_of_lt {g : Guard R} (h : g.count < g.capacity) (r : R) :
    g.push r = ⟨g.store r, [], .ok g.count⟩ := if_pos h

theorem push_of_ge {g : Guard R} (h : g.capacity ≤ g.count) (r : R) :
    g.push r = ⟨g, .discarding r :: droppedEvents (Owned.destroy true r),
      .error (.fault (.guardFull g.capacity))⟩ := if_neg (Nat.not_lt.2 h)

theorem tryPush_of_lt {g : Guard R} (h : g.count < g.capacity) (site : Site) (r : R) :
    g.tryPush site r = ⟨g.store r, [], .ok g.count⟩ := if_neg (Nat.not_le.2 h)

theorem tryPush_of_ge {g : Guard R} (h : g.capacity ≤ g.count) (site : Site) (r : R) :
    g.tryPush site r = ⟨g, .discarding r :: droppedEvents (Owned.destroy false r), .error <|
      match (Owned.destroy false r).fault with
      | some f => .fault f
      | none => .error (.malformed (guardFullText g.capacity) site)⟩ := if_pos h

theorem take_slots_store {g : Guard R} (h : g.count < g.capacity) (r : R) :
    (g.store r).slots.take (g.count + 1) = g.slots.take g.count ++ [some r] := by
  rw [store, List.take_add_one, List.take_set_of_le (Nat.le_refl _), List.getElem?_set_self h]
  rfl

theorem held_store {g : Guard R} (h : g.count < g.capacity) (r : R) :
    (g.store r).held = g.held ++ [r] := by
  have hcount : (g.store r).count = g.count + 1 := rfl
  rw [held, hcount, take_slots_store h, List.reduceOption_append, List.reduceOption_singleton]
  rfl

/-! ### Steps -/

/-- The object that a step hands over. -/
def Step.offered : Step R → List R
  | .push r => [r]
  | .tryPush _ r => [r]
  | _ => []

/-- A step hands an object over, or it is a release, or it only looks. -/
theorem Step.kinds (s : Step R) :
    (∃ r, s.offered = [r]) ∨ s = .releaseAll ∨ (s.offered = [] ∧ s ≠ .releaseAll) := by
  cases s with
  | push r => exact .inl ⟨r, rfl⟩
  | tryPush site r => exact .inl ⟨r, rfl⟩
  | releaseAll => exact .inr (.inl rfl)
  | get i => exact .inr (.inr ⟨rfl, nofun⟩)
  | getRow i => exact .inr (.inr ⟨rfl, nofun⟩)
  | filled i => exact .inr (.inr ⟨rfl, nofun⟩)
  | capacity => exact .inr (.inr ⟨rfl, nofun⟩)

/-- An object that is handed over is stored behind the others, or the table is full, the object is
destroyed and the guard stays as it is. -/
theorem step_of_offered {s : Step R} {r : R} (h : s.offered = [r]) (g : Guard R) :
    (g.count < g.capacity ∧ g.step s = ⟨g.store r, [], .index g.count⟩) ∨
    (g.capacity ≤ g.count ∧ (g.step s).guard = g ∧ (∃ f, (g.step s).reply = .failed f) ∧
      Event.begun (g.step s).events = [r]) := by
  cases s with
  | push r' =>
    cases h
    rcases Nat.lt_or_ge g.count g.capacity with hlt | hge
    · rw [step, push_of_lt hlt]
      exact .inl ⟨hlt, rfl⟩
    · rw [step, push_of_ge hge]
      exact .inr ⟨hge, rfl, ⟨_, rfl⟩, by simp [Entry.ofOutcome]⟩
  | tryPush site r' =>
    cases h
    rcases Nat.lt_or_ge g.count g.capacity with hlt | hge
    · rw [step, tryPush_of_lt hlt]
      exact .inl ⟨hlt, rfl⟩
    · rw [step, tryPush_of_ge hge]
      exact .inr ⟨hge, rfl, ⟨_, rfl⟩, by simp [Entry.ofOutcome]⟩
  | _ => cases h

theorem step_of_look {s : Step R} (h : s.offered = []) (hne : s ≠ .releaseAll) (g : Guard R) :
    (g.step s).guard = g ∧ (g.step s).events = [] := by
  cases s with
  | push r => cases h
  | tryPush site r => cases h
  | releaseAll => exact absurd rfl hne
  | _ => exact ⟨rfl, rfl⟩

/-- What a step does to the guard and the objects: it is a push that fits, a push that is turned
away, a release, or it changes nothing. -/
theorem step_cases (g : Guard R) (s : Step R) :
    (∃ r, s.offered = [r] ∧ g.count < g.capacity ∧ (g.step s).guard = g.store r ∧
      Event.begun (g.step s).events = []) ∨
    (∃ r, s.offered = [r] ∧ g.capacity ≤ g.count ∧ (g.step s).guard = g ∧
      Event.begun (g.step s).events = [r]) ∨
    (s.offered = [] ∧ (g.step s).guard = (g.release false).guard ∧
      (g.step s).events = (g.release false).events) ∨
    (s.offered = [] ∧ (g.step s).guard = g ∧ (g.step s).events = []) := by
  rcases s.kinds with ⟨r, hr⟩ | rfl | ⟨hr, hne⟩
  · rcases step_of_offered hr g with ⟨hlt, hstep⟩ | ⟨hge, hguard, -, hbegun⟩
    · exact .inl ⟨r, hr, hlt, by rw [hstep], by rw [hstep]; rfl⟩
    · exact .inr (.inl ⟨r, hr, hge, hguard, hbegun⟩)
  · exact .inr (.inr (.inl ⟨rfl, rfl, rfl⟩))
  · exact .inr (.inr (.inr ⟨hr, step_of_look hr hne g⟩))

theorem capacity_step (g : Guard R) (s : Step R) : (g.step s).guard.capacity = g.capacity := by
  rcases step_cases g s with ⟨r, -, -, hg, -⟩ | ⟨r, -, -, hg, -⟩ | ⟨-, hg, -⟩ | ⟨-, hg, -⟩
  · rw [hg]
    exact List.length_set
  · rw [hg]
  · rw [hg]
    exact capacity_release false g
  · rw [hg]

theorem count_step_le {g : Guard R} (h : g.count ≤ g.capacity) (s : Step R) :
    (g.step s).guard.count ≤ g.capacity := by
  rcases step_cases g s with ⟨r, -, hlt, hg, -⟩ | ⟨r, -, -, hg, -⟩ | ⟨-, hg, -⟩ | ⟨-, hg, -⟩
  · rw [hg]
    exact hlt
  · rwa [hg]
  · rw [hg]
    exact Nat.le_trans (count_release_le false g) h
  · rwa [hg]

/-- An object that a guard holds or is given is held afterwards or its release has started. -/
theorem held_step_perm (g : Guard R) (s : Step R) :
    (g.held ++ s.offered).Perm ((g.step s).guard.held ++ Event.begun (g.step s).events) := by
  rcases step_cases g s with ⟨r, ho, hlt, hg, hb⟩ | ⟨r, ho, -, hg, hb⟩ | ⟨ho, hg, he⟩ | ⟨ho, hg, he⟩
  · rw [ho, hg, hb, held_store hlt, List.append_nil]
  · rw [ho, hg, hb]
  · rw [ho, hg, he, List.append_nil, ← begun_append_held_release false g]
    exact List.perm_append_comm
  · rw [ho, hg, he, Event.begun_nil]

/-- A step leaves the slots alone that are owned neither before nor after it. -/
theorem slots_step_of_le {g : Guard R} {s : Step R} {i : Nat} (h : g.count ≤ i)
    (h' : (g.step s).guard.count ≤ i) : (g.step s).guard.slots[i]? = g.slots[i]? := by
  rcases step_cases g s with ⟨r, -, -, hg, -⟩ | ⟨r, -, -, hg, -⟩ | ⟨-, hg, -⟩ | ⟨-, hg, -⟩
  · rw [hg] at h' ⊢
    have hne : g.count ≠ i := Nat.ne_of_lt h'
    exact List.getElem?_set_ne hne
  · rw [hg]
  · rw [hg]
    exact slots_release_of_le false g h
  · rw [hg]

/-- A step leaves the slots empty that are owned before it but not after it. -/
theorem slots_step_of_lt {g : Guard R} {s : Step R} {i : Nat} (h : i < g.count)
    (h' : (g.step s).guard.count ≤ i) : (g.step s).guard.slots[i]?.join = none := by
  rcases step_cases g s with ⟨r, -, -, hg, -⟩ | ⟨r, -, -, hg, -⟩ | ⟨-, hg, -⟩ | ⟨-, hg, -⟩
  · rw [hg] at h'
    have hcount : (g.store r).count = g.count + 1 := rfl
    omega
  · rw [hg] at h'
    omega
  · rw [hg] at h' ⊢
    exact slots_release_of_lt false g h h'
  · rw [hg] at h'
    omega

/-! ### The books -/

/-- A guard in the course of a scope, with the books that are kept of it. -/
structure Ledger (R : Type) where
  guard : Guard R
  /-- The objects adopted at the start or handed over since. -/
  given : List R
  /-- The objects whose release has started, in order. -/
  begun : List R
  /-- The greatest count so far. -/
  peak : Nat

namespace Ledger

/-- The books of a guard that has just been made. -/
def start (g : Guard R) : Ledger R := ⟨g, g.held, [], g.count⟩

/-- The books after a step. -/
def after (l : Ledger R) (s : Step R) : Ledger R where
  guard := (l.guard.step s).guard
  given := l.given ++ s.offered
  begun := l.begun ++ Event.begun (l.guard.step s).events
  peak := max l.peak (l.guard.step s).guard.count

/-- The books at every moment of a run, its start included. -/
def run (l : Ledger R) : List (Step R) → List (Ledger R)
  | [] => [l]
  | s :: ss => l :: run (l.after s) ss

/-- What the books show of a guard over a table that held `initial` at first. -/
structure Balanced (initial : List (Option R)) (l : Ledger R) : Prop where
  count_le_capacity : l.guard.count ≤ l.guard.capacity
  capacity_eq : l.guard.capacity = initial.length
  given_perm : l.given.Perm (l.guard.held ++ l.begun)
  count_le_peak : l.guard.count ≤ l.peak
  /-- Slots that are owned no more are empty. -/
  cleared : ∀ i, l.guard.count ≤ i → i < l.peak → l.guard.slots[i]?.join = none
  /-- Slots that have never been owned hold what they held at first. -/
  untouched : ∀ i, l.peak ≤ i → l.guard.slots[i]? = initial[i]?

theorem balanced_start {g : Guard R} (h : g.count ≤ g.capacity) : (start g).Balanced g.slots where
  count_le_capacity := h
  capacity_eq := rfl
  given_perm := by simp [start]
  count_le_peak := Nat.le_refl _
  cleared _ hle hlt := absurd hlt (Nat.not_lt.2 hle)
  untouched _ _ := rfl

theorem balanced_after {initial : List (Option R)} {l : Ledger R} (h : l.Balanced initial)
    (s : Step R) : (l.after s).Balanced initial where
  count_le_capacity := by
    simp only [after, capacity_step]
    exact count_step_le h.count_le_capacity s
  capacity_eq := (capacity_step l.guard s).trans h.capacity_eq
  given_perm := by
    simp only [after]
    calc (l.given ++ s.offered).Perm (l.guard.held ++ l.begun ++ s.offered) :=
          h.given_perm.append_right _
      _ |>.Perm (l.begun ++ (l.guard.held ++ s.offered)) := by
          rw [← List.append_assoc]
          exact List.perm_append_comm.append_right _
      _ |>.Perm (l.begun ++ ((l.guard.step s).guard.held ++ Event.begun (l.guard.step s).events)) :=
          (held_step_perm l.guard s).append_left _
      _ |>.Perm
          ((l.guard.step s).guard.held ++ (l.begun ++ Event.begun (l.guard.step s).events)) := by
          rw [← List.append_assoc, ← List.append_assoc]
          exact List.perm_append_comm.append_right _
  count_le_peak := Nat.le_max_right _ _
  cleared i hle hlt := by
    simp only [after] at hle hlt ⊢
    rcases Nat.lt_or_ge i l.guard.count with hi | hi
    · exact slots_step_of_lt hi hle
    · rw [slots_step_of_le hi hle]
      exact h.cleared i hi (by omega)
  untouched i hi := by
    simp only [after] at hi ⊢
    have hle := h.count_le_peak
    rw [slots_step_of_le (by omega) (by omega)]
    exact h.untouched i (by omega)

theorem balanced_of_mem_run {initial : List (Option R)} {l m : Ledger R} (h : l.Balanced initial)
    {steps : List (Step R)} (hm : m ∈ l.run steps) : m.Balanced initial := by
  induction steps generalizing l with
  | nil => rwa [List.mem_singleton.1 hm]
  | cons s ss ih =>
    rcases List.mem_cons.1 hm with rfl | hm
    · exact h
    · exact ih (balanced_after h s) hm

/-! ### One place for each object -/

/-- Exactly one owned slot holds the object, and its release has not started. -/
def HeldOnce (l : Ledger R) (r : R) : Prop :=
  (∃! i, i < l.guard.count ∧ l.guard.slots[i]? = some (some r)) ∧ r ∉ l.begun

/-- The release of the object has started exactly once, and no owned slot holds it. -/
def ReleasedOnce [DecidableEq R] (l : Ledger R) (r : R) : Prop :=
  l.begun.count r = 1 ∧ ∀ i < l.guard.count, l.guard.slots[i]? ≠ some (some r)

theorem heldOnce_of_mem {l : Ledger R} {r : R} (hd : l.guard.held.Nodup) (hr : r ∈ l.guard.held)
    (hb : r ∉ l.begun) : l.HeldOnce r := by
  obtain ⟨i, hi, hslot⟩ := mem_held_iff.1 hr
  exact ⟨⟨i, ⟨hi, hslot⟩, fun j ⟨hj, hslot'⟩ => slot_unique hd hj hi hslot' hslot⟩, hb⟩

theorem releasedOnce_of_mem [DecidableEq R] {l : Ledger R} {r : R} (hd : l.begun.Nodup)
    (hb : r ∈ l.begun) (hr : r ∉ l.guard.held) : l.ReleasedOnce r :=
  ⟨by rw [hd.count, if_pos hb], fun i hi hslot => hr (mem_held_iff.2 ⟨i, hi, hslot⟩)⟩

/-- Objects that are given once are in one place. -/
theorem place_of_nodup [DecidableEq R] {initial : List (Option R)} {l : Ledger R}
    (h : l.Balanced initial) (hd : l.given.Nodup) {r : R} (hr : r ∈ l.given) :
    l.HeldOnce r ∨ l.ReleasedOnce r := by
  obtain ⟨hheld, hbegun, hdisj⟩ := List.nodup_append.1 (h.given_perm.nodup_iff.1 hd)
  rcases List.mem_append.1 (h.given_perm.mem_iff.1 hr) with hr | hr
  · exact .inl (heldOnce_of_mem hheld hr fun hb => hdisj r hr r hb rfl)
  · exact .inr (releasedOnce_of_mem hbegun hr fun hh => hdisj r hh r hr rfl)

/-! ### The scope behind the books -/

theorem run_guard (l : Ledger R) (steps : List (Step R)) :
    (l.run steps).map (·.guard) = l.guard :: (l.guard.run steps).1.map (·.guard) := by
  induction steps generalizing l with
  | nil => rfl
  | cons s ss ih =>
    simp only [run, List.map_cons, ih, Guard.run]
    rfl

theorem getLast?_run (l : Ledger R) (steps : List (Step R)) :
    ∃ m, (l.run steps).getLast? = some m ∧ m.guard = (l.guard.run steps).2 ∧
      m.given = l.given ++ steps.flatMap Step.offered ∧
      m.begun = l.begun ++ Event.begun ((l.guard.run steps).1.flatMap (·.events)) := by
  induction steps generalizing l with
  | nil => exact ⟨l, rfl, rfl, by simp, by simp [Guard.run]⟩
  | cons s ss ih =>
    obtain ⟨m, hm, hguard, hgiven, hbegun⟩ := ih (l.after s)
    refine ⟨m, ?_, hguard, ?_, ?_⟩
    · rw [run, List.getLast?_cons, hm]
      rfl
    · rw [hgiven, List.flatMap_cons, ← List.append_assoc]
      rfl
    · rw [hbegun, Guard.run, List.flatMap_cons, Event.begun_append, ← List.append_assoc]
      rfl

end Ledger

/-! ### Scopes -/

/-- The number of slots that a guard owns from the start. -/
def Start.owned : Start → Nat
  | new => 0
  | adopt n => n

theorem Start.guard_of_le {start : Start} {slots : List (Option R)}
    (h : start.owned ≤ slots.length) : start.guard slots = .ok ⟨slots, start.owned⟩ := by
  cases start with
  | new => rfl
  | adopt n => exact if_pos h

/-- A push and a try to push turn the object away: its release starts at once and only once, and
the guard stays as it is. -/
structure TurnsAway (g : Guard R) (r : R) : Prop where
  push_guard : (g.push r).guard = g
  push_begun : Event.begun (g.push r).events = [r]
  push_result : (g.push r).result = .error (.fault (.guardFull g.capacity))
  tryPush_guard : ∀ site, (g.tryPush site r).guard = g
  tryPush_begun : ∀ site, Event.begun (g.tryPush site r).events = [r]
  tryPush_result : Sound false r → ∀ site, (g.tryPush site r).result =
    .error (.error (.malformed (guardFullText g.capacity) site))

theorem turnsAway_of_full {g : Guard R} (h : g.capacity ≤ g.count) (r : R) : g.TurnsAway r := by
  have hpush := push_of_ge h r
  have htry := fun site => tryPush_of_ge h site r
  constructor
  · rw [hpush]
  · rw [hpush]
    simp
  · rw [hpush]
  · intro site
    rw [htry]
  · intro site
    rw [htry]
    simp
  · intro hr site
    unfold Sound at hr
    rw [htry, hr]

/-- What the books show at one moment of a scope. -/
structure Ledger.Accounts [DecidableEq R] (initial : List (Option R)) (l : Ledger R) : Prop
    extends l.Balanced initial where
  place : l.given.Nodup → ∀ r ∈ l.given, l.HeldOnce r ∨ l.ReleasedOnce r
  turnsAway : l.guard.count = l.guard.capacity → ∀ r, l.guard.TurnsAway r

/-- The moments of a ledger are those of a scope: the guard's making, the entries of the report, and
the guard's end. -/
structure Ledger.Follows (g : Guard R) (steps : List (Step R)) (moments : List (Ledger R))
    (report : Report R α) : Prop where
  guards : ∃ last, moments.map (·.guard) = g :: report.entries.map (·.guard) ++ [last] ∧
    last.slots = report.slots
  books : ∃ m, moments.getLast? = some m ∧ m.given = g.held ++ steps.flatMap Step.offered ∧
    m.begun = Event.begun (report.entries.flatMap (·.events) ++ report.events)
  /-- An end without a fault leaves nothing owned, and every slot empty that has ever been owned. -/
  ended : report.exit = .left → ∃ m, moments.getLast? = some m ∧ m.guard.count = 0 ∧
    ∀ i < m.peak, report.slots[i]?.join = none

theorem run_concat (g : Guard R) (steps : List (Step R)) (s : Step R) :
    g.run (steps ++ [s]) =
      ((g.run steps).1 ++ [(g.run steps).2.step s], ((g.run steps).2.step s).guard) := by
  induction steps generalizing g with
  | nil => rfl
  | cons t ts ih => simp only [List.cons_append, run, ih]

theorem follows_leave {slots : List (Option R)} {start : Start} {g : Guard R}
    (h : start.guard slots = .ok g) (hstart : (Ledger.start g).Balanced slots)
    (steps : List (Step R)) :
    Ledger.Follows g steps ((Ledger.start g).run (steps ++ [.releaseAll]))
      (Scope.run slots ⟨start, steps, .leave⟩) := by
  have hrun : Scope.run slots ⟨start, steps, .leave⟩ =
      ⟨(g.run steps).1, ((g.run steps).2.finish .leave).1, ((g.run steps).2.finish .leave).2.1,
        ((g.run steps).2.finish .leave).2.2⟩ := by
    simp only [Scope.run, h]
  obtain ⟨m, hm, hguard, hgiven, hbegun⟩ := (Ledger.start g).getLast?_run (steps ++ [.releaseAll])
  rw [hrun, finish_leave]
  refine ⟨⟨(g.run steps).2.releaseAll.guard, ?_, rfl⟩, ⟨m, hm, ?_, ?_⟩, fun hleft => ⟨m, hm, ?_⟩⟩
  · rw [Ledger.run_guard, Ledger.start, run_concat, List.map_append]
    rfl
  · rw [hgiven, List.flatMap_append]
    simp [Ledger.start, Step.offered]
  · rw [hbegun, Ledger.start, run_concat, List.flatMap_append]
    simp [step, Entry.ofOutcome]
  · have hlast : m.guard = (g.run steps).2.releaseAll.guard := by
      rw [hguard, Ledger.start, run_concat]
      rfl
    have hcount : m.guard.count = 0 := by
      rw [hlast]
      exact count_of_finish_leave hleft
    have hbalanced := Ledger.balanced_of_mem_run hstart (List.mem_of_getLast? hm)
    refine ⟨hcount, fun i hi => ?_⟩
    rw [← hlast]
    exact hbalanced.cleared i (hcount ▸ Nat.zero_le i) hi

end Endian.Guard
