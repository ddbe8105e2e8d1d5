import Endian.Proofs.Guard.Release

/-!
# Releasing again after a fault

A release that stops at a fault can be taken up again. `Guard.contents` are the owned slots that hold
an object, with their objects, and `Guard.faults` those among them whose object is at fault. Each
release stops at the first of these and leaves the others (`releaseAll_of_faults`), so that as many
releases fail as there are objects at fault, each at its own slot, and the next one comes to the end
(`releases_resume`). All of them together release every object in its turn, once.
-/

namespace Endian

variable {R α : Type}

/-! ### Releases by slot -/

/-- The slot and the object of a release that starts. -/
def Event.release? : Event R → Option (Nat × R)
  | .releasing i r => some (i, r)
  | _ => none

/-- The slots and objects whose release starts, in order. -/
def Event.releases (events : List (Event R)) : List (Nat × R) := events.filterMap Event.release?

namespace Event

theorem releases_append (a b : List (Event R)) : releases (a ++ b) = releases a ++ releases b :=
  List.filterMap_append

theorem releases_releasing (i : Nat) (r : R) (events : List (Event R)) :
    releases (.releasing i r :: events) = (i, r) :: releases events := rfl

theorem releases_droppedEvents (w : Wreck) :
    releases (Guard.droppedEvents w : List (Event R)) = [] := by
  unfold releases Guard.droppedEvents
  rw [List.filterMap_map, List.filterMap_eq_nil_iff]
  intro id _
  rfl

variable [Owned R α]

/-- The report of a release. -/
def releaseText (R : Type) [Owned R α] (i : Nat) : String :=
  s!"TRACE release guard: releasing slot {i} ({(Owned.strategy R).name})"

/-- Every release is reported, and nothing else is. -/
theorem filterMap_text? (events : List (Event R)) :
    events.filterMap text? = (releases events).map fun p => releaseText R p.1 := by
  rw [releases, List.map_filterMap]
  congr 1
  funext e
  cases e <;> rfl

end Event

namespace Guard

/-- The objects in slots that are counted from `i`, with the numbers of their slots. -/
def numbered (i : Nat) (slots : List (Option R)) : List (Nat × R) :=
  (slots.zipIdx i).filterMap fun p => p.1.map fun r => (p.2, r)

/-- The owned slots that hold an object, in order. -/
def contents (g : Guard R) : List (Nat × R) := numbered 0 (g.slots.take g.count)

theorem numbered_none (i : Nat) (rest : List (Option R)) :
    numbered i (none :: rest) = numbered (i + 1) rest := by
  rw [numbered, List.zipIdx_cons, List.filterMap_cons_none rfl, numbered]

theorem numbered_some (i : Nat) (r : R) (rest : List (Option R)) :
    numbered i (some r :: rest) = (i, r) :: numbered (i + 1) rest := by
  rw [numbered, List.zipIdx_cons]
  rfl

theorem numbered_append (i : Nat) (a b : List (Option R)) :
    numbered i (a ++ b) = numbered i a ++ numbered (i + a.length) b := by
  rw [numbered, List.zipIdx_append, List.filterMap_append, numbered, numbered]

theorem numbered_replicate_none (i n : Nat) :
    numbered i (List.replicate n (none : Option R)) = [] := by
  induction n generalizing i with
  | zero => rfl
  | succ n ih => rw [List.replicate_succ, numbered_none, ih]

theorem mem_numbered_iff {i k : Nat} {r : R} {slots : List (Option R)} :
    (k, r) ∈ numbered i slots ↔ i ≤ k ∧ slots[k - i]? = some (some r) := by
  simp only [numbered, List.mem_filterMap, Option.map_eq_some_iff, Prod.mk.injEq, Prod.exists,
    List.mem_zipIdx_iff_le_and_getElem?_sub]
  constructor
  · rintro ⟨slot, j, ⟨hle, hslot⟩, r', rfl, rfl, rfl⟩
    exact ⟨hle, hslot⟩
  · rintro ⟨hle, hslot⟩
    exact ⟨some r, k, ⟨hle, hslot⟩, r, rfl, rfl, rfl⟩

theorem pairwise_numbered (i : Nat) (slots : List (Option R)) :
    (numbered i slots).Pairwise fun p q => p.1 < q.1 := by
  induction slots generalizing i with
  | nil => exact .nil
  | cons slot rest ih =>
    cases slot with
    | none =>
      rw [numbered_none]
      exact ih (i + 1)
    | some r =>
      rw [numbered_some]
      exact .cons (fun p hp => (mem_numbered_iff.1 hp).1) (ih (i + 1))

theorem snd_mem_of_mem_numbered {i : Nat} {p : Nat × R} {slots : List (Option R)}
    (h : p ∈ numbered i slots) : p.2 ∈ slots.reduceOption :=
  List.reduceOption_mem_iff.2 (List.mem_of_getElem? (mem_numbered_iff.1 h).2)

theorem mem_contents_iff {g : Guard R} {i : Nat} {r : R} :
    (i, r) ∈ g.contents ↔ i < g.count ∧ g.slots[i]? = some (some r) := by
  rw [contents, mem_numbered_iff, Nat.sub_zero, List.getElem?_take]
  split
  · next h => simp [h]
  · next h => simp [h]

variable [Owned R α]

/-- Whether the release of the object in a slot is a fault. -/
def atFault (p : Nat × R) : Bool := (Owned.destroy false p.2).fault.isSome

/-- The owned slots whose object is at fault, in order. -/
def faults (g : Guard R) : List (Nat × R) := g.contents.filter atFault

/-! ### One release -/

/-- The releases of slots and what is left in them are together what was in them before. -/
theorem releases_append_left (unwinding : Bool) (i : Nat) (slots : List (Option R)) :
    Event.releases (releaseSlots unwinding i slots).events ++
      numbered i (releaseSlots unwinding i slots).slots = numbered i slots := by
  induction slots generalizing i with
  | nil => rfl
  | cons slot rest ih =>
    cases slot with
    | none =>
      rw [releaseSlots_none, numbered_none, numbered_none]
      exact ih (i + 1)
    | some r =>
      cases hf : (Owned.destroy unwinding r).fault with
      | some f =>
        rw [releaseSlots_fault hf, Event.releases_releasing, Event.releases_droppedEvents,
          numbered_none, numbered_some]
        rfl
      | none =>
        rw [releaseSlots_sound hf, Event.releases_append, Event.releases_releasing,
          Event.releases_droppedEvents, numbered_none, numbered_some]
        exact congrArg _ (ih (i + 1))

theorem contents_of_count_eq_zero {g : Guard R} (h : g.count = 0) : g.contents = [] := by
  rw [contents, h]
  rfl

theorem releases_append_contents (g : Guard R) :
    Event.releases g.releaseAll.events ++ g.releaseAll.guard.contents = g.contents := by
  have hleft := releases_append_left false 0 (g.slots.take g.count)
  have htake := take_slots_release false g
  rw [releaseAll, events_release]
  cases releaseSlots_ends false 0 (g.slots.take g.count) with
  | emptied sound left begun fault =>
    rw [left, numbered_replicate_none] at hleft
    rw [contents_of_count_eq_zero (by rw [release_of_none fault])]
    exact hleft
  | stopped front r rest f split sound bad left begun fault =>
    have hcount : (g.release false).guard.count = g.count := by rw [release_of_some fault]
    rw [contents, hcount, htake]
    exact hleft

/-- Nothing is in slot `k`. -/
structure EmptyAt (g : Guard R) (k : Nat) : Prop where
  slot : g.slots[k]? = some none
  get : g.get? k = none
  row : g.getRow? k = none

/-- Slot `k` is as it was. -/
structure SameAt (g g' : Guard R) (k : Nat) : Prop where
  slot : g'.slots[k]? = g.slots[k]?
  get : g'.get? k = g.get? k
  row : g'.getRow? k = g.getRow? k

theorem emptyAt_of_slot {g : Guard R} {k : Nat} (h : g.slots[k]? = some none) : g.EmptyAt k := by
  have howned : g.owned? k = none := by
    rw [owned?, h]
    exact ite_self none
  exact ⟨h, by rw [get?, howned]; rfl, by rw [getRow?, howned]; rfl⟩

theorem sameAt_of_slot {g g' : Guard R} {k : Nat} (hlt : k < g'.count ↔ k < g.count)
    (h : g'.slots[k]? = g.slots[k]?) : g.SameAt g' k := by
  have howned : g'.owned? k = g.owned? k := by simp only [owned?, hlt, h]
  exact ⟨h, by rw [get?, get?, howned], by rw [getRow?, getRow?, howned]⟩

theorem SameAt.trans {g g' g'' : Guard R} {k : Nat} (h : g.SameAt g' k) (h' : g'.SameAt g'' k) :
    g.SameAt g'' k :=
  ⟨h'.slot.trans h.slot, h'.get.trans h.get, h'.row.trans h.row⟩

/-- A release that stopped at slot `i`, whose object `r` is at fault. -/
structure StoppedAt (g : Guard R) (i : Nat) (r : R) (e : Entry R α) : Prop where
  reply : ∃ f, (Owned.destroy false r).fault = some f ∧ e.reply = .failed (.fault f)
  last : (Event.releases e.events).getLast? = some (i, r)
  count_eq : e.guard.count = g.count
  cleared : ∀ k ≤ i, e.guard.EmptyAt k
  untouched : ∀ k > i, g.SameAt e.guard k

/-- A release that came to the end. -/
structure Ended (g : Guard R) (e : Entry R α) : Prop where
  reply : e.reply = .done
  count_eq : e.guard.count = 0
  cleared : ∀ k < g.count, e.guard.slots[k]?.join = none
  untouched : ∀ k ≥ g.count, e.guard.slots[k]? = g.slots[k]?

theorem filter_numbered_of_sound {slots : List (Option R)}
    (h : ∀ r ∈ slots.reduceOption, Sound false r) (i : Nat) :
    (numbered i slots).filter atFault = [] := by
  refine List.filter_eq_nil_iff.2 fun p hp => ?_
  have hsound := h p.2 (snd_mem_of_mem_numbered hp)
  unfold Sound at hsound
  rw [atFault, hsound]
  exact Bool.false_ne_true

/-- Behind a place, empty slots in front of it make no difference. -/
theorem getElem?_replicate_append {front rest : List (Option R)} {slot : Option R} {k : Nat}
    (h : front.length < k) :
    (List.replicate (front.length + 1) none ++ rest)[k]? = (front ++ slot :: rest)[k]? := by
  rw [List.getElem?_append_right (by rw [List.length_replicate]; omega), List.length_replicate,
    List.getElem?_append_right (by omega), List.getElem?_cons, if_neg (by omega)]
  congr 1

theorem ended_of_sound {g : Guard R}
    (fault : (releaseSlots false 0 (g.slots.take g.count)).fault = none) :
    Ended g (g.step .releaseAll) := by
  have hrelease := release_of_none fault
  have hcount : (g.release false).guard.count = 0 := by rw [hrelease]
  refine ⟨?_, hcount, fun k hk => ?_, fun k hk => slots_release_of_le false g hk⟩
  · show (Entry.ofOutcome _ (g.release false)).reply = .done
    rw [hrelease]
    rfl
  · exact slots_release_of_lt false g hk (hcount ▸ Nat.zero_le k)

theorem stoppedAt_of_fault {g : Guard R} {front : List (Option R)} {r : R} {rest : List (Option R)}
    {f : Fault} (split : g.slots.take g.count = front ++ some r :: rest)
    (bad : (Owned.destroy false r).fault = some f)
    (left : (releaseSlots false 0 (g.slots.take g.count)).slots =
      List.replicate (front.length + 1) none ++ rest)
    (fault : (releaseSlots false 0 (g.slots.take g.count)).fault = some f) :
    StoppedAt g front.length r (g.step .releaseAll) := by
  have hrelease := release_of_some fault
  have htake := take_slots_release false g
  have hcount : (g.step .releaseAll).guard.count = g.count := congrArg (·.guard.count) hrelease
  have hlen : front.length < g.count := by
    have h := congrArg List.length split
    rw [List.length_take, List.length_append, List.length_cons] at h
    omega
  refine ⟨⟨f, bad, ?_⟩, ?_, hcount, fun k hk => emptyAt_of_slot ?_,
    fun k hk => sameAt_of_slot (by rw [hcount]) ?_⟩
  · show (Entry.ofOutcome _ (g.release false)).reply = .failed (.fault f)
    rw [hrelease]
    rfl
  · have hleft := releases_append_left false 0 (g.slots.take g.count)
    rw [left, numbered_append, numbered_replicate_none, List.length_replicate, List.nil_append,
      split, numbered_append, numbered_some, Nat.zero_add, Nat.zero_add] at hleft
    have hreleases := List.append_cancel_right (hleft.trans (List.append_cons _ _ _))
    show (Event.releases (g.release false).events).getLast? = some (front.length, r)
    rw [events_release, split, hreleases, List.getLast?_concat]
  · show (g.release false).guard.slots[k]? = some none
    rw [← List.getElem?_take_of_lt (Nat.lt_of_le_of_lt hk hlen), htake, left,
      List.getElem?_append_left (by rw [List.length_replicate]; omega),
      List.getElem?_replicate_of_lt (by omega)]
  · show (g.release false).guard.slots[k]? = g.slots[k]?
    rcases Nat.lt_or_ge k g.count with hlt | hge
    · have hbefore : g.slots[k]? = (front ++ some r :: rest)[k]? := by
        rw [← List.getElem?_take_of_lt hlt, split]
      rw [← List.getElem?_take_of_lt hlt, htake, left, hbefore]
      exact getElem?_replicate_append hk
    · exact slots_release_of_le false g hge

/-- The faults before a release are the one at which it stops and those that are left. -/
theorem faults_of_fault {g : Guard R} {front : List (Option R)} {r : R} {rest : List (Option R)}
    {f : Fault} (split : g.slots.take g.count = front ++ some r :: rest)
    (sound : ∀ r ∈ front.reduceOption, Sound false r)
    (bad : (Owned.destroy false r).fault = some f)
    (left : (releaseSlots false 0 (g.slots.take g.count)).slots =
      List.replicate (front.length + 1) none ++ rest)
    (fault : (releaseSlots false 0 (g.slots.take g.count)).fault = some f) :
    g.faults = (front.length, r) :: (g.step .releaseAll).guard.faults := by
  have hcontents : g.contents =
      numbered 0 front ++ (front.length, r) :: numbered (front.length + 1) rest := by
    rw [contents, split, numbered_append, numbered_some, Nat.zero_add]
  have hafter : (g.release false).guard.contents = numbered (front.length + 1) rest := by
    have hcount : (g.release false).guard.count = g.count := by rw [release_of_some fault]
    rw [contents, hcount, take_slots_release, left, numbered_append, numbered_replicate_none,
      List.length_replicate, Nat.zero_add, List.nil_append]
  have hbad : atFault (front.length, r) = true := by
    rw [atFault, bad]
    rfl
  show g.faults = (front.length, r) :: (g.release false).guard.faults
  rw [faults, faults, hcontents, hafter, List.filter_append, filter_numbered_of_sound sound,
    List.nil_append, List.filter_cons_of_pos hbad]

/-- One release stops at the first slot at fault and leaves the others to the next, or it comes to
the end because there is none. -/
theorem releaseAll_of_faults (g : Guard R) :
    (g.faults = [] ∧ Ended g (g.step .releaseAll)) ∨
    ∃ i r, g.faults = (i, r) :: (g.step .releaseAll).guard.faults ∧
      StoppedAt g i r (g.step .releaseAll) := by
  cases releaseSlots_ends false 0 (g.slots.take g.count) with
  | emptied sound left begun fault =>
    exact .inl ⟨filter_numbered_of_sound sound 0, ended_of_sound fault⟩
  | stopped front r rest f split sound bad left begun fault =>
    exact .inr ⟨front.length, r, faults_of_fault split sound bad left fault,
      stoppedAt_of_fault split bad left fault⟩

theorem ended_of_done {g : Guard R} (h : (g.step .releaseAll).reply = .done) :
    g.Ended (g.step .releaseAll) := by
  rcases g.releaseAll_of_faults with ⟨-, hended⟩ | ⟨i, r, -, hstopped⟩
  · exact hended
  · obtain ⟨f, -, hf⟩ := hstopped.reply
    rw [h] at hf
    cases hf

/-- What is at fault after a release lies behind the slot at which it stopped. -/
theorem StoppedAt.lt_of_mem {g : Guard R} {i j : Nat} {r r' : R} {e : Entry R α}
    (h : g.StoppedAt i r e) (hj : (j, r') ∈ e.guard.faults) : i < j := by
  by_contra hle
  have hslot := (mem_contents_iff.1 (List.mem_filter.1 hj).1).2
  rw [(h.cleared j (Nat.not_lt.1 hle)).slot] at hslot
  cases hslot

theorem StoppedAt.trans {g : Guard R} {i j : Nat} {r r' : R} {e e' : Entry R α}
    (h : g.StoppedAt i r e) (hlt : i < j) (h' : e.guard.StoppedAt j r' e') : g.StoppedAt j r' e' where
  reply := h'.reply
  last := h'.last
  count_eq := h'.count_eq.trans h.count_eq
  cleared := h'.cleared
  untouched k hk := (h.untouched k (Nat.lt_trans hlt hk)).trans (h'.untouched k hk)

theorem StoppedAt.trans_ended {g : Guard R} {i : Nat} {r : R} {e e' : Entry R α}
    (h : g.StoppedAt i r e) (hlt : i < g.count) (h' : e.guard.Ended e') : g.Ended e' where
  reply := h'.reply
  count_eq := h'.count_eq
  cleared k hk := h'.cleared k (h.count_eq.symm ▸ hk)
  untouched k hk := by
    have hsame := (h.untouched k (Nat.lt_of_lt_of_le hlt hk)).slot
    exact (h'.untouched k (h.count_eq.symm ▸ hk)).trans hsame

/-! ### Release after release -/

/-- The entries of so many releases in a row. -/
def releaseRun (g : Guard R) (n : Nat) : List (Entry R α) :=
  (g.run (List.replicate n .releaseAll)).1

/-- The guard after some steps. -/
def after (g : Guard R) (steps : List (Step R)) : Guard R := (g.run steps).2

theorem releaseRun_succ (g : Guard R) (n : Nat) :
    g.releaseRun (n + 1) = g.step .releaseAll :: (g.step .releaseAll).guard.releaseRun n := rfl

theorem after_cons (g : Guard R) (s : Step R) (steps : List (Step R)) :
    g.after (s :: steps) = (g.step s).guard.after steps := rfl

/-- However many releases there are, they have released what is not left. -/
theorem releases_releaseRun (g : Guard R) (n : Nat) :
    Event.releases ((g.releaseRun n).flatMap (·.events)) ++
      (g.after (List.replicate n .releaseAll)).contents = g.contents := by
  induction n generalizing g with
  | zero => rfl
  | succ n ih =>
    have hone : Event.releases (g.step .releaseAll).events ++
        (g.step .releaseAll).guard.contents = g.contents := releases_append_contents g
    rw [releaseRun_succ, List.replicate_succ, after_cons, List.flatMap_cons, Event.releases_append,
      List.append_assoc, ih, hone]

theorem after_of_getElem? {g : Guard R} {n : Nat} {e : Entry R α}
    (h : (g.releaseRun (n + 1))[n]? = some e) :
    g.after (List.replicate (n + 1) .releaseAll) = e.guard := by
  induction n generalizing g with
  | zero =>
    cases h
    rfl
  | succ n ih =>
    rw [releaseRun_succ, List.getElem?_cons_succ] at h
    exact ih h

/-- Every release but the last one stops at the next slot at fault, and the last one comes to the
end. -/
structure StopsInTurn (g : Guard R) (es : List (Entry R α)) : Prop where
  length_eq : es.length = g.faults.length + 1
  stopped : ∀ (t i : Nat) (r : R), g.faults[t]? = some (i, r) →
    ∃ e, es[t]? = some e ∧ g.StoppedAt i r e
  ended : ∃ e, es[g.faults.length]? = some e ∧ g.Ended e

theorem stopsInTurn (g : Guard R) : g.StopsInTurn (g.releaseRun (g.faults.length + 1)) := by
  induction hfaults : g.faults generalizing g with
  | nil =>
    rcases g.releaseAll_of_faults with ⟨-, hended⟩ | ⟨i, r, hcons, -⟩
    · refine ⟨by rw [hfaults]; rfl, fun t i r ht => ?_, ?_⟩
      · rw [hfaults] at ht
        cases ht
      · rw [hfaults]
        exact ⟨_, rfl, hended⟩
    · rw [hfaults] at hcons
      cases hcons
  | cons p rest ih =>
    rcases g.releaseAll_of_faults with ⟨hnil, -⟩ | ⟨i, r, hcons, hstopped⟩
    · rw [hfaults] at hnil
      cases hnil
    · rw [hfaults] at hcons
      obtain ⟨rfl, hrest⟩ := List.cons.inj hcons
      have hi : i < g.count := by
        have hmem : (i, r) ∈ g.faults := hfaults ▸ List.mem_cons_self
        exact (mem_contents_iff.1 (List.mem_filter.1 hmem).1).1
      obtain ⟨hlen, hstop, e, he, hend⟩ := ih (g.step .releaseAll).guard hrest.symm
      rw [← hrest] at hlen hstop he
      rw [List.length_cons, releaseRun_succ]
      refine ⟨?_, fun t j r' ht => ?_, e, ?_, hstopped.trans_ended hi hend⟩
      · rw [hfaults, List.length_cons, List.length_cons, hlen]
      · rw [hfaults] at ht
        cases t with
        | zero =>
          cases ht
          exact ⟨_, rfl, hstopped⟩
        | succ t =>
          have hmem : (j, r') ∈ (g.step .releaseAll).guard.faults :=
            hrest ▸ List.mem_of_getElem? ht
          obtain ⟨e', he', hstop'⟩ := hstop t j r' ht
          exact ⟨e', he', hstopped.trans (hstopped.lt_of_mem hmem) hstop'⟩
      · rw [hfaults]
        exact he

/-- The entries of a release that is taken up again until it comes to the end. -/
structure Resumes (g : Guard R) (es : List (Entry R α)) : Prop extends g.StopsInTurn es where
  released : Event.releases (es.flatMap (·.events)) = g.contents
  reported : (es.flatMap (·.events)).filterMap Event.text? =
    g.contents.map fun p => Event.releaseText R p.1

/-- A release can be taken up again after each object at fault. It stops at one after the other, and
when it comes to the end, all objects have been released in the order of their slots. -/
theorem releases_resume (g : Guard R) :
    g.Resumes (g.releaseRun (g.faults.length + 1)) ∧
      (∀ (i : Nat) (r : R), (i, r) ∈ g.contents ↔ i < g.count ∧ g.slots[i]? = some (some r)) ∧
      g.contents.Pairwise fun p q => p.1 < q.1 := by
  have hstops := g.stopsInTurn
  have hreleased : Event.releases ((g.releaseRun (g.faults.length + 1)).flatMap (·.events)) =
      g.contents := by
    obtain ⟨e, he, hended⟩ := hstops.ended
    have hall := g.releases_releaseRun (g.faults.length + 1)
    rw [after_of_getElem? he, contents_of_count_eq_zero hended.count_eq,
      List.append_nil] at hall
    exact hall
  refine ⟨⟨hstops, hreleased, ?_⟩, fun _ _ => mem_contents_iff, pairwise_numbered _ _⟩
  rw [Event.filterMap_text?, hreleased]

/-- Two of three objects are bombs: two releases stop, and the third one comes to the end. -/
example :
    let slots : List (Option (Boxed Tracked)) :=
      [some ⟨⟨1, true⟩⟩, none, some ⟨⟨2, true⟩⟩, some ⟨⟨3, false⟩⟩]
    ((Guard.mk slots 4).releaseRun 3).map (·.guard.count) = [4, 4, 0] := by
  decide

end Guard

end Endian
