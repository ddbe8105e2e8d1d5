import Endian.Proofs.Guard.Allocation
import Endian.Proofs.Guard.Ledger
import Endian.Proofs.Guard.Resume

/-!
# What a guard hands back

A guard is a bounded list. `stored` is the list that a sequence of steps leaves: what fits is added at
the end, and a release empties it. As long as every release comes to its end, the owned slots hold
this list in order, whatever the table held at first (`stores_after`). From this follows all that can
be seen of the guard: what the slots answer, what the next step does, and that later pushes leave
earlier answers alone (`Stores.handsBack`). `guard_hands_back` says what that is for boxed objects,
for plain data, and for rows, which come back with their own lengths.
-/

namespace Endian

/-! ### Destruction element by element -/

section Destruction

variable {α : Type} [Element α]

/-- The identity that the destruction of an element records. -/
def Element.id? (a : α) : Option Nat :=
  match Element.fate a with
  | .silent => none
  | .recorded id => some id
  | .bomb id => some id

/-- Every element is destroyed, once and in order, a bomb among them or not. -/
theorem ids_destroyAll_eq (unwinding : Bool) (l : List α) :
    (destroyAll unwinding l).ids = l.filterMap Element.id? := by
  induction l generalizing unwinding with
  | nil => rfl
  | cons a rest ih =>
    rw [destroyAll]
    cases hfate : Element.fate a with
    | silent => rw [List.filterMap_cons_none (by rw [Element.id?, hfate]), ← ih]
    | recorded id =>
      rw [List.filterMap_cons_some (b := id) (by rw [Element.id?, hfate]), ← ih unwinding]
    | bomb id =>
      rw [List.filterMap_cons_some (b := id) (by rw [Element.id?, hfate]), ← ih true]
      cases unwinding <;> rfl

theorem length_filterMap_id? {l : List α} (h : ∀ a ∈ l, Element.fate a ≠ .silent) :
    (l.filterMap Element.id?).length = l.length := by
  rw [List.filterMap_length_eq_length]
  intro a ha
  have hfate := h a ha
  unfold Element.id?
  split
  · next heq => exact absurd heq hfate
  · rfl
  · rfl

end Destruction

namespace Guard

variable {R α β : Type} [Owned R α]

/-! ### A bounded list -/

/-- What a step makes of the objects that are stored. -/
def Step.onStored (capacity : Nat) (l : List R) : Step R → List R
  | .releaseAll => []
  | s => (l ++ s.offered).take capacity

/-- The objects stored since the last release. -/
def stored (capacity : Nat) (steps : List (Step R)) : List R :=
  steps.foldl (Step.onStored capacity) []

/-- Every release among the steps comes to its end. -/
def FullReleases (g : Guard R) (steps : List (Step R)) : Prop :=
  ∀ p ∈ steps.zip (g.run steps).1, p.1 = .releaseAll → p.2.reply = .done

theorem Step.onStored_of_ne {s : Step R} (h : s ≠ .releaseAll) (capacity : Nat) (l : List R) :
    s.onStored capacity l = (l ++ s.offered).take capacity := by
  cases s with
  | releaseAll => exact absurd rfl h
  | _ => rfl

/-! ### What the owned slots hold -/

/-- The owned slots hold the objects of a list. -/
structure Stores (g : Guard R) (l : List R) : Prop where
  length_le : l.length ≤ g.capacity
  count_eq : g.count = l.length
  slots_eq : g.slots.take g.count = l.map some

theorem stores_nil {g : Guard R} (h : g.count = 0) : g.Stores [] where
  length_le := Nat.zero_le _
  count_eq := h
  slots_eq := by rw [h]; rfl

namespace Stores

variable {g : Guard R} {l : List R}

theorem store (h : g.Stores l) (hlt : g.count < g.capacity) (r : R) :
    (g.store r).Stores (l ++ [r]) where
  length_le := by
    have hcount := h.count_eq
    have hcap : (g.store r).capacity = g.capacity := List.length_set
    rw [hcap, List.length_append, List.length_singleton]
    omega
  count_eq := by
    rw [List.length_append, ← h.count_eq]
    rfl
  slots_eq := by
    rw [List.map_append, ← h.slots_eq]
    exact take_slots_store hlt r

/-- A step does to the slots what it does to the list. -/
theorem step (h : g.Stores l) {s : Step R} (hfull : s = .releaseAll → (g.step s).reply = .done) :
    (g.step s).guard.Stores (s.onStored g.capacity l) := by
  have hcount := h.count_eq
  have hle := h.length_le
  rcases s.kinds with ⟨r, hr⟩ | rfl | ⟨hr, hne⟩
  · have hne : s ≠ .releaseAll := by
      rintro rfl
      cases hr
    rw [Step.onStored_of_ne hne, hr]
    rcases step_of_offered hr g with ⟨hlt, hstep⟩ | ⟨hge, hguard, -⟩
    · rw [hstep, List.take_of_length_le (by rw [List.length_append, List.length_singleton]; omega)]
      exact h.store hlt r
    · rw [hguard, List.take_left' (by omega)]
      exact h
  · exact stores_nil (ended_of_done (hfull rfl)).count_eq
  · rw [Step.onStored_of_ne hne, (step_of_look hr hne g).1, hr, List.append_nil,
      List.take_of_length_le hle]
    exact h

end Stores

/-- After any steps whose releases come to their end, the guard holds what it stored. -/
theorem stores_after {g : Guard R} {l : List R} (h : g.Stores l) {steps : List (Step R)}
    (hfull : g.FullReleases steps) :
    (g.after steps).Stores (steps.foldl (Step.onStored g.capacity) l) := by
  induction steps generalizing g l with
  | nil => exact h
  | cons s ss ih =>
    obtain ⟨hone, hrest⟩ := List.forall_mem_cons.1 hfull
    have hlater := ih (h.step hone) hrest
    rw [capacity_step] at hlater
    rwa [after_cons]

/-! ### What can be seen -/

/-- The answers of a guard that holds the objects of a list. -/
structure Shows (g : Guard R) (l : List R) : Prop where
  count_eq : g.count = l.length
  count_le : g.count ≤ g.capacity
  get : ∀ (i : Nat) (r : R), l[i]? = some r → g.get? i = Owned.first? r
  row : ∀ (i : Nat) (r : R), l[i]? = some r → g.getRow? i = Owned.row? r
  beyond : ∀ i ≥ g.count, g.get? i = none ∧ g.getRow? i = none

theorem Stores.owned?_eq {g : Guard R} {l : List R} (h : g.Stores l) (i : Nat) :
    g.owned? i = l[i]? := by
  have hcount := h.count_eq
  rw [owned?]
  split
  · next hlt =>
    rw [← List.getElem?_take_of_lt hlt, h.slots_eq, List.getElem?_map,
      List.getElem?_eq_getElem (by omega)]
    rfl
  · next hge => rw [List.getElem?_eq_none (by omega)]

theorem Stores.shows {g : Guard R} {l : List R} (h : g.Stores l) : g.Shows l where
  count_eq := h.count_eq
  count_le := h.count_eq ▸ h.length_le
  get i r hr := by rw [get?, h.owned?_eq, hr]; rfl
  row i r hr := by rw [getRow?, h.owned?_eq, hr]; rfl
  beyond i hi := by
    have hnone : g.owned? i = none := if_neg (Nat.not_lt.2 hi)
    rw [get?, getRow?, hnone]
    exact ⟨rfl, rfl⟩

/-! ### What a release does to what is stored -/

/-- The events of one release: its start, and what the destruction records. -/
def releaseEvents (i : Nat) (r : R) : List (Event R) :=
  .releasing i r :: droppedEvents (Owned.destroy false r)

theorem releases_releaseEvents (i : Nat) (r : R) : Event.releases (releaseEvents i r) = [(i, r)] := by
  rw [releaseEvents, Event.releases_releasing, Event.releases_droppedEvents]

/-- The events of a release are those of its objects, one after the other. -/
theorem events_releaseSlots (i : Nat) (slots : List (Option R)) :
    (releaseSlots false i slots).events =
      (Event.releases (releaseSlots false i slots).events).flatMap fun p =>
        releaseEvents p.1 p.2 := by
  induction slots generalizing i with
  | nil => rfl
  | cons slot rest ih =>
    cases slot with
    | none => exact ih (i + 1)
    | some r =>
      have hone : releaseEvents i r =
          (Event.releases (releaseEvents i r)).flatMap fun p => releaseEvents p.1 p.2 := by
        rw [releases_releaseEvents, List.flatMap_singleton]
      cases hf : (Owned.destroy false r).fault with
      | some f =>
        rw [releaseSlots_fault hf]
        exact hone
      | none =>
        have hevents : (releaseSlots false i (some r :: rest)).events =
            releaseEvents i r ++ (releaseSlots false (i + 1) rest).events := by
          rw [releaseSlots_sound hf]
          rfl
        rw [hevents, Event.releases_append, List.flatMap_append, ← hone, ← ih (i + 1)]

theorem numbered_map_some (i : Nat) (l : List R) :
    numbered i (l.map some) = (l.zipIdx i).map Prod.swap := by
  induction l generalizing i with
  | nil => rfl
  | cons r rest ih =>
    rw [List.map_cons, numbered_some, ih, List.zipIdx_cons, List.map_cons]
    rfl

theorem Stores.contents_eq {g : Guard R} {l : List R} (h : g.Stores l) :
    g.contents = l.zipIdx.map Prod.swap := by
  rw [contents, h.slots_eq, numbered_map_some]

/-- What a release of the objects of a list shows: it takes them in order and destroys each as a
whole, and all of them if it comes to its end. -/
structure Releases (l : List R) (e : Entry R α) : Prop where
  in_order : Event.releases e.events <+: l.zipIdx.map Prod.swap
  events_eq : e.events = (Event.releases e.events).flatMap fun p => releaseEvents p.1 p.2
  full : e.reply = .done → Event.releases e.events = l.zipIdx.map Prod.swap ∧ e.guard.count = 0

theorem Stores.releases {g : Guard R} {l : List R} (h : g.Stores l) :
    Releases l (g.step .releaseAll) := by
  have hcontents : Event.releases (g.step .releaseAll).events ++
      (g.step .releaseAll).guard.contents = l.zipIdx.map Prod.swap := by
    rw [← h.contents_eq]
    exact g.releases_append_contents
  refine ⟨⟨_, hcontents⟩, ?_, fun hdone => ?_⟩
  · show (g.release false).events = (Event.releases (g.release false).events).flatMap _
    rw [events_release]
    exact events_releaseSlots 0 _
  · have hcount := (ended_of_done hdone).count_eq
    rw [contents_of_count_eq_zero hcount, List.append_nil] at hcontents
    exact ⟨hcontents, hcount⟩

/-! ### What comes next -/

/-- What a step does to a guard that holds the objects of a list. -/
structure Acts (g : Guard R) (l : List R) (s : Step R) : Prop where
  accepts : ∀ r, s.offered = [r] → l.length < g.capacity →
    (g.step s).reply = .index l.length ∧ (g.step s).guard.count = g.count + 1
  rejects : ∀ r, s.offered = [r] → l.length = g.capacity →
    (∃ f, (g.step s).reply = .failed f) ∧ (g.step s).guard = g
  releases : s = .releaseAll → Releases l (g.step s)
  looks : s.offered = [] → s ≠ .releaseAll → (g.step s).guard = g

theorem Stores.acts {g : Guard R} {l : List R} (h : g.Stores l) (s : Step R) : g.Acts l s where
  accepts r hr hlt := by
    have hcount := h.count_eq
    rcases step_of_offered hr g with ⟨-, hstep⟩ | ⟨hge, -⟩
    · rw [hstep, ← hcount]
      exact ⟨rfl, rfl⟩
    · omega
  rejects r hr hfull := by
    have hcount := h.count_eq
    rcases step_of_offered hr g with ⟨hlt, -⟩ | ⟨-, hguard, hreply, -⟩
    · omega
    · exact ⟨hreply, hguard⟩
  releases hs := by
    subst hs
    exact h.releases
  looks hr hne := (step_of_look hr hne g).1

/-- Without a release, the answers of the owned slots stay. -/
theorem sameAt_step {g : Guard R} {s : Step R} (hs : s ≠ .releaseAll) {i : Nat} (hi : i < g.count) :
    i < (g.step s).guard.count ∧ g.SameAt (g.step s).guard i := by
  have hsame : i < g.count ∧ g.SameAt g i := ⟨hi, rfl, rfl, rfl⟩
  rcases s.kinds with ⟨r, hr⟩ | rfl | ⟨hr, -⟩
  · rcases step_of_offered hr g with ⟨-, hstep⟩ | ⟨-, hguard, -⟩
    · have hlt : i < (g.store r).count := Nat.lt_succ_of_lt hi
      rw [hstep]
      exact ⟨hlt, sameAt_of_slot (iff_of_true hlt hi) (List.getElem?_set_ne (Nat.ne_of_gt hi))⟩
    · rwa [hguard]
  · exact absurd rfl hs
  · rwa [(step_of_look hr hs g).1]

theorem sameAt_after {g : Guard R} {more : List (Step R)} (hmore : .releaseAll ∉ more) {i : Nat}
    (hi : i < g.count) : g.SameAt (g.after more) i := by
  induction more generalizing g with
  | nil => exact ⟨rfl, rfl, rfl⟩
  | cons s ss ih =>
    have hs : s ≠ .releaseAll := (List.ne_of_not_mem_cons hmore).symm
    obtain ⟨hlt, hsame⟩ := sameAt_step hs hi
    rw [after_cons]
    exact hsame.trans (ih (List.not_mem_of_not_mem_cons hmore) hlt)

/-- A guard hands back the objects of a list: it answers with them, the next step acts on them, and
until the next release the answers stay. -/
structure HandsBack (g : Guard R) (l : List R) : Prop extends g.Shows l where
  next : ∀ s, g.Acts l s
  later : ∀ more, .releaseAll ∉ more → ∀ i < g.count, g.SameAt (g.after more) i

theorem Stores.handsBack {g : Guard R} {l : List R} (h : g.Stores l) : g.HandsBack l where
  toShows := h.shows
  next := h.acts
  later _ hmore _ hi := sameAt_after hmore hi

theorem new_handsBack {slots : List (Option R)} {steps : List (Step R)}
    (h : (new slots).FullReleases steps) :
    ((new slots).after steps).HandsBack (stored slots.length steps) :=
  (stores_after (stores_nil rfl) h).handsBack

/-- A slot hands back a row that was moved into memory, and its release destroys the elements of that
row one by one. -/
structure ReturnsRow [Inline β] [Element β] (g : Guard (Allocation β)) (i : Nat) (a : Allocation β)
    (items : List β) : Prop where
  row : g.getRow? i = some items
  first : g.get? i = items.head?
  destroyed : releaseEvents i a = .releasing i a :: (items.filterMap Element.id?).map .dropped
  each : (∀ b ∈ items, Element.fate b ≠ .silent) → (releaseEvents i a).length = items.length + 1

theorem Shows.returnsRow [Inline β] [Element β] {g : Guard (Allocation β)} {l : List (Allocation β)}
    (h : g.Shows l) {i : Nat} {a : Allocation β} (ha : l[i]? = some a) {items : List β}
    (hholds : a.Holds items) : g.ReturnsRow i a items := by
  have hids : (Owned.destroy false a).ids = items.filterMap Element.id? := by
    rw [hholds.destroy_eq]
    exact ids_destroyAll_eq false items
  have hdestroyed :
      releaseEvents i a = .releasing i a :: (items.filterMap Element.id?).map .dropped := by
    rw [releaseEvents, droppedEvents, hids]
  refine ⟨(h.row i a ha).trans hholds.row?_eq, (h.get i a ha).trans hholds.first?_eq, hdestroyed,
    fun hfate => ?_⟩
  rw [hdestroyed, List.length_cons, List.length_map, length_filterMap_id? hfate]

/-- A guard hands back what it stores, under each of the three strategies. -/
theorem guard_hands_back {α : Type} [Element α] :
    (∀ (slots : List (Option (Boxed α))) (steps : List (Step (Boxed α))),
      (new slots).FullReleases steps →
      ((new slots).after steps).HandsBack (stored slots.length steps) ∧
      ∀ (i : Nat) (a : α), (stored slots.length steps)[i]? = some ⟨a⟩ →
        ((new slots).after steps).get? i = some a) ∧
    (∀ (slots : List (Option (Block α))) (steps : List (Step (Block α))),
      (new slots).FullReleases steps →
      ((new slots).after steps).HandsBack (stored slots.length steps) ∧
      ∀ (i : Nat) (a : α), (stored slots.length steps)[i]? = some ⟨a⟩ →
        ((new slots).after steps).get? i = some a) ∧
    ∀ [Inline α],
      (∀ (slots : List (Option (Allocation α))) (steps : List (Step (Allocation α))),
        (new slots).FullReleases steps →
        ((new slots).after steps).HandsBack (stored slots.length steps) ∧
        ∀ (i : Nat) (a : Allocation α) (base : Nat) (stray : Nat → UInt8) (items : List α),
          items.length < UInt64.size → Allocation.ofRow base stray items = .ok a →
          (stored slots.length steps)[i]? = some a →
          ((new slots).after steps).ReturnsRow i a items) ∧
      ∀ (base : Nat) (stray : Nat → UInt8) (items : List α),
        (∃ a, Allocation.ofRow base stray items = .ok a) ↔
          (Inline.layout α).Fits items.length := by
  refine ⟨fun slots steps h => ?_, fun slots steps h => ?_,
    fun {_} => ⟨fun slots steps h => ?_, fun _ _ _ => Allocation.exists_ofRow_iff⟩⟩
  · have hback := new_handsBack h
    exact ⟨hback, fun i a ha => hback.get i ⟨a⟩ ha⟩
  · have hback := new_handsBack h
    exact ⟨hback, fun i a ha => hback.get i ⟨a⟩ ha⟩
  · have hback := new_handsBack h
    exact ⟨hback, fun i a base stray items hlen hrow ha =>
      hback.toShows.returnsRow ha (Allocation.holds_ofRow hlen hrow)⟩

/-- Objects with the given identities in a row. -/
def marked (ids : List UInt32) : List Mark := ids.map fun id => ⟨id, false⟩

def markedRow (ids : List UInt32) : Allocation Mark := .placed 4096 (fun _ => 165) (marked ids)

/-- Rows of several lengths, over a table in which an earlier guard left its slots as they were. -/
theorem guard_hands_back_marked :
    let slots := List.replicate 3 (some (markedRow [9]))
    let steps := [Step.push (markedRow [1, 2]), .releaseAll, .push (markedRow []),
      .tryPush ⟨"guard", 7⟩ (markedRow [3, 4, 5])]
    let g := (new slots).after steps
    g.ReturnsRow 0 (markedRow []) [] ∧ g.ReturnsRow 1 (markedRow [3, 4, 5]) (marked [3, 4, 5]) ∧
      g.filled? 2 = some true ∧ g.get? 2 = none ∧ g.getRow? 2 = none ∧
      ((new [none]).after [.push (Boxed.mk (Mark.mk 7 false))]).get? 0 = some ⟨7, false⟩ ∧
      ((new [none]).after [.push (Block.mk (Mark.mk 7 false))]).get? 0 = some ⟨7, false⟩ := by
  intro slots steps g
  obtain ⟨hboxed, hblock, hrows⟩ := guard_hands_back (α := Mark)
  have hfull : (new slots).FullReleases steps := by
    unfold FullReleases
    decide
  have hplaced (ids : List UInt32) (h : (Inline.layout Mark).Fits (marked ids).length) :
      Allocation.ofRow 4096 (fun _ => 165) (marked ids) = .ok (markedRow ids) :=
    Allocation.ofRow_of_fits _ _ _ h
  have hnoRelease {R : Type} [Owned R Mark] (r : R) : (new [none]).FullReleases [.push r] := by
    rintro p hp hrelease
    rw [List.mem_singleton.1 hp] at hrelease
    cases hrelease
  obtain ⟨hback, hreturns⟩ := hrows.1 slots steps hfull
  refine ⟨?_, ?_, by decide, ?_, ?_, ?_, ?_⟩
  · exact hreturns 0 _ _ _ _ (by decide) (hplaced [] (by unfold Layout.Fits; decide)) rfl
  · exact hreturns 1 _ _ _ _ (by decide) (hplaced [3, 4, 5] (by unfold Layout.Fits; decide)) rfl
  · exact (hback.beyond 2 (by decide)).1
  · exact (hback.beyond 2 (by decide)).2
  · exact (hboxed [none] _ (hnoRelease _)).2 0 _ rfl
  · exact (hblock [none] _ (hnoRelease _)).2 0 _ rfl

end Guard

end Endian
